import Gentest.Lib.Interleaving

/-!
# The shared state of a promise and its future

`AsyncPromiseSharedState<T>` and its specialisation for `void` differ only in
where a value is kept, so the state is written once over a `ValueStore`. Every
operation is one locked section; a completion swaps the waiters out under the
lock and posts them afterwards, one by one, while other threads go on.

A `World` is the shared state, the wait states that have expired, the waiters
a completion has still to post, and a record of what the operations answered.
Registrations are numbered so that the record can speak about one of them.
-/

namespace Gentest.Async

open Interleaving (run run_invariant run_rel run_append)

inductive AsyncPromiseTerminal
  | pending
  | value
  | exception
  | blocked
  deriving DecidableEq, Repr

inductive AsyncPromiseWaitRegistration
  | ready
  | waiting
  | alreadyWaiting
  deriving DecidableEq, Repr

/-- `id` numbers the registration; the source has the other two fields. -/
structure AsyncPromiseWaiter where
  id : Nat
  token : Option Nat
  state : Nat
  deriving DecidableEq, Repr

/-- How a call of `take_value` ends. -/
inductive Taken (α E : Type)
  | value (v : α)
  | rethrown (e : E)
  | blockedException (reason : String)
  | contractViolation (message : String)
  deriving DecidableEq, Repr

/-- Where the shared state keeps a completed value: `std::optional<T> value_`
for a payload, nothing for `void`. -/
structure ValueStore (α β E : Type) where
  empty : β
  emplace : α → β
  read : β → Option α
  /-- How `take_value` ends when the outcome left it nothing to return. -/
  withoutValue : Taken α E
  read_emplace : ∀ v, read (emplace v) = some v

def ValueStore.payload (α E : Type) : ValueStore α (Option α) E where
  empty := none
  emplace := some
  read := id
  withoutValue := .contractViolation "gentest::async::future resumed without value"
  read_emplace _ := rfl

def ValueStore.void (E : Type) : ValueStore Unit Unit E where
  empty := ()
  emplace _ := ()
  read _ := some ()
  withoutValue := .value ()
  read_emplace _ := rfl

structure AsyncPromiseSharedState (β E : Type) where
  waitStarted : Bool := false
  consumed : Bool := false
  terminal : AsyncPromiseTerminal := .pending
  value : β
  exception : Option E := none
  blockedReason : String := ""
  waiters : List AsyncPromiseWaiter := []
  deriving DecidableEq, Repr

section
variable {α β E : Type}

def asyncPromiseBlockedReason (reason : String) : String :=
  if reason.isEmpty then "async promise cannot resume" else reason

def pruneExpiredWaitersLocked (expired : List Nat) (s : AsyncPromiseSharedState β E) :
    AsyncPromiseSharedState β E :=
  let waiters := s.waiters.filter fun waiter => !expired.contains waiter.state
  { s with waiters := waiters, waitStarted := !waiters.isEmpty }

def waitOrPost (expired : List Nat) (waiter : AsyncPromiseWaiter)
    (s : AsyncPromiseSharedState β E) :
    AsyncPromiseWaitRegistration × AsyncPromiseSharedState β E :=
  if s.terminal ≠ .pending then (.ready, s)
  else
    let s := pruneExpiredWaitersLocked expired s
    if s.waitStarted then (.alreadyWaiting, s)
    else (.waiting, { s with waitStarted := true, waiters := s.waiters ++ [waiter] })

/-- The waiters `cancel_wait` erases: the caller's, and any that has expired. -/
def erasedByCancel (expired : List Nat) (waitState : Nat) (waiter : AsyncPromiseWaiter) : Bool :=
  expired.contains waiter.state || waiter.state == waitState

def cancelWait (expired : List Nat) (waitState : Nat) (s : AsyncPromiseSharedState β E) :
    AsyncPromiseSharedState β E :=
  if s.terminal ≠ .pending then s
  else
    let waiters := s.waiters.filter fun waiter => !erasedByCancel expired waitState waiter
    { s with waiters := waiters, waitStarted := !waiters.isEmpty }

/-- The locked section the three completions share: refuse unless pending,
otherwise store the outcome and swap the waiters out. -/
def completeLocked (store : AsyncPromiseSharedState β E → AsyncPromiseSharedState β E)
    (s : AsyncPromiseSharedState β E) :
    Bool × List AsyncPromiseWaiter × AsyncPromiseSharedState β E :=
  if s.terminal ≠ .pending then (false, [], s)
  else (true, s.waiters, { store s with waiters := [] })

def trySetValue (vs : ValueStore α β E) (v : α) :
    AsyncPromiseSharedState β E → Bool × List AsyncPromiseWaiter × AsyncPromiseSharedState β E :=
  completeLocked fun s => { s with value := vs.emplace v, terminal := .value }

def trySetException (e : E) :
    AsyncPromiseSharedState β E → Bool × List AsyncPromiseWaiter × AsyncPromiseSharedState β E :=
  completeLocked fun s => { s with exception := some e, terminal := .exception }

def trySetBlocked (reason : String) :
    AsyncPromiseSharedState β E → Bool × List AsyncPromiseWaiter × AsyncPromiseSharedState β E :=
  completeLocked fun s =>
    { s with blockedReason := asyncPromiseBlockedReason reason, terminal := .blocked }

def abandon :
    AsyncPromiseSharedState β E → Bool × List AsyncPromiseWaiter × AsyncPromiseSharedState β E :=
  trySetBlocked "async promise was abandoned before completion"

def takeValue (vs : ValueStore α β E) (s : AsyncPromiseSharedState β E) :
    Taken α E × AsyncPromiseSharedState β E :=
  match s.terminal with
  | .pending => (.contractViolation "gentest::async::future resumed before completion", s)
  | .exception =>
    match s.exception with
    | some e => (.rethrown e, s)
    | none => (vs.withoutValue, s)
  | .blocked =>
    if !s.blockedReason.isEmpty then (.blockedException s.blockedReason, s)
    else (vs.withoutValue, s)
  | .value =>
    match s.consumed, vs.read s.value with
    | false, some v => (.value v, { s with consumed := true })
    | _, _ => (.contractViolation "gentest::async::future value was already consumed", s)

-- ---------------------------------------------------------------------------
-- Interleavings
-- ---------------------------------------------------------------------------

/-- One atomic step of some thread. `postNext` is the completing thread going
on with `post_async_promise_waiters`. -/
inductive PromiseStep (α E : Type)
  | waitOrPost (waitState : Nat) (token : Option Nat)
  | cancelWait (waitState : Nat)
  | expire (waitState : Nat)
  | trySetValue (v : α)
  | trySetException (e : E)
  | trySetBlocked (reason : String)
  | abandon
  | postNext
  | takeValue
  deriving DecidableEq, Repr

structure PromiseWorld (α β E : Type) where
  shared : AsyncPromiseSharedState β E
  expired : List Nat := []
  posting : List AsyncPromiseWaiter := []
  registrations : Nat := 0
  /-- The answers of the completion operations, latest last. -/
  completions : List Bool := []
  /-- The registrations whose token a completion posted. -/
  posted : List Nat := []
  /-- The registrations `cancel_wait` removed. -/
  removed : List Nat := []
  /-- How the calls of `take_value` ended, latest last. -/
  taken : List (Taken α E) := []
  deriving DecidableEq, Repr

def PromiseWorld.init (vs : ValueStore α β E) : PromiseWorld α β E where
  shared := { value := vs.empty }

def PromiseWorld.complete (w : PromiseWorld α β E)
    (op : AsyncPromiseSharedState β E → Bool × List AsyncPromiseWaiter × AsyncPromiseSharedState β E) :
    PromiseWorld α β E :=
  let out := op w.shared
  { w with
    shared := out.2.2
    posting := w.posting ++ out.2.1
    completions := w.completions ++ [out.1] }

/-- A wait state is passed as a `shared_ptr`, so its operations need it alive. -/
def PromiseWorld.step (vs : ValueStore α β E) (w : PromiseWorld α β E) :
    PromiseStep α E → Option (PromiseWorld α β E)
  | .waitOrPost waitState token =>
    if w.expired.contains waitState then none
    else some { w with
      shared := (waitOrPost w.expired ⟨w.registrations, token, waitState⟩ w.shared).2
      registrations := w.registrations + 1 }
  | .cancelWait waitState =>
    if w.expired.contains waitState then none
    else
      let gone := if w.shared.terminal = .pending
        then w.shared.waiters.filter (erasedByCancel w.expired waitState) else []
      some { w with
        shared := cancelWait w.expired waitState w.shared
        removed := w.removed ++ gone.map AsyncPromiseWaiter.id }
  | .expire waitState => some { w with expired := waitState :: w.expired }
  | .trySetValue v => some (w.complete (trySetValue vs v))
  | .trySetException e => some (w.complete (trySetException e))
  | .trySetBlocked reason => some (w.complete (trySetBlocked reason))
  | .abandon => some (w.complete abandon)
  | .postNext =>
    match w.posting with
    | [] => none
    | waiter :: rest =>
      -- an expired wait state has its token canceled instead
      let posts := !w.expired.contains waiter.state && waiter.token.isSome
      some { w with posting := rest, posted := w.posted ++ if posts then [waiter.id] else [] }
  | .takeValue =>
    let out := takeValue vs w.shared
    some { w with shared := out.2, taken := w.taken ++ [out.1] }

-- ---------------------------------------------------------------------------
-- The invariant
-- ---------------------------------------------------------------------------

def Taken.isValue : Taken α E → Bool
  | .value _ => true
  | _ => false

/-- How often registration `n` still waits, is to be posted, was posted or was
removed. Every step moves a registration along, none brings one back. -/
def PromiseWorld.uses (w : PromiseWorld α β E) (n : Nat) : Nat :=
  w.shared.waiters.countP (fun waiter => waiter.id == n) +
    w.posting.countP (fun waiter => waiter.id == n) + w.posted.count n + w.removed.count n

/-- What the completions answered and the values taken agree with the outcome
stored, which has what `take_value` needs. -/
structure Settled (vs : ValueStore α β E) (s : AsyncPromiseSharedState β E)
    (completions : List Bool) (taken : List (Taken α E)) : Prop where
  pending : s.terminal = .pending → completions = []
  once : s.terminal ≠ .pending → ∃ n, completions = true :: List.replicate n false
  value : s.terminal = .value → ∃ v, vs.read s.value = some v
  exception : s.terminal = .exception → ∃ e, s.exception = some e
  blocked : s.terminal = .blocked → s.blockedReason ≠ ""
  consumed : s.consumed = true → s.terminal = .value
  taken : taken.countP Taken.isValue = if s.consumed then 1 else 0

/-- Waiters are registered only while pending, one at a time, and posted only
after a completion took them. -/
structure Queued (w : PromiseWorld α β E) : Prop where
  oneWaiter : w.shared.waiters.length ≤ 1
  idle : w.shared.terminal = .pending → w.posting = []
  drained : w.shared.terminal ≠ .pending → w.shared.waiters = []
  uses : ∀ n, w.uses n ≤ if n < w.registrations then 1 else 0

def PromiseInv (vs : ValueStore α β E) (w : PromiseWorld α β E) : Prop :=
  Settled vs w.shared w.completions w.taken ∧ Queued w

theorem PromiseInv.init (vs : ValueStore α β E) : PromiseInv vs (.init vs) := by
  constructor <;> constructor <;> simp [PromiseWorld.init, PromiseWorld.uses]

theorem asyncPromiseBlockedReason_ne (reason : String) : asyncPromiseBlockedReason reason ≠ "" := by
  unfold asyncPromiseBlockedReason
  split
  · decide
  · simpa using ‹¬reason.isEmpty = true›

/-- A wait either finds the outcome, is refused because a live waiter is
registered, or registers alone. -/
theorem waitOrPost_cases (expired : List Nat) (waiter : AsyncPromiseWaiter)
    (s : AsyncPromiseSharedState β E) :
    (s.terminal ≠ .pending ∧ waitOrPost expired waiter s = (.ready, s)) ∨
    (s.terminal = .pending ∧ (∃ live ∈ s.waiters, live.state ∉ expired) ∧
      waitOrPost expired waiter s = (.alreadyWaiting, pruneExpiredWaitersLocked expired s)) ∨
    (s.terminal = .pending ∧ (∀ stale ∈ s.waiters, stale.state ∈ expired) ∧
      waitOrPost expired waiter s =
        (.waiting, { s with waitStarted := true, waiters := [waiter] })) := by
  by_cases hp : s.terminal = .pending
  · right
    by_cases hlive : ∃ live ∈ s.waiters, live.state ∉ expired
    · left
      have hstarted : (pruneExpiredWaitersLocked expired s).waitStarted = true := by
        simpa [pruneExpiredWaitersLocked] using hlive
      exact ⟨hp, hlive, by simp [waitOrPost, hp, hstarted]⟩
    · right
      have hnil : (s.waiters.filter fun waiter => !expired.contains waiter.state) = [] := by
        simpa [List.filter_eq_nil_iff] using hlive
      have hprune : pruneExpiredWaitersLocked expired s = { s with waiters := [], waitStarted := false } := by
        simp only [pruneExpiredWaitersLocked, hnil, List.isEmpty_nil, Bool.not_true]
      exact ⟨hp, by simpa using hlive, by simp [waitOrPost, hp, hprune]⟩
  · exact .inl ⟨hp, by simp [waitOrPost, hp]⟩

theorem Settled.waiters {vs : ValueStore α β E} {answers : List Bool} {values : List (Taken α E)}
    (h : Settled vs s answers values) (waiters : List AsyncPromiseWaiter) (waitStarted : Bool) :
    Settled vs { s with waiters := waiters, waitStarted := waitStarted } answers values :=
  ⟨h.pending, h.once, h.value, h.exception, h.blocked, h.consumed, h.taken⟩

theorem PromiseInv.waitOrPost {w w' : PromiseWorld α β E} (hw : PromiseInv vs w)
    (h : w.step vs (.waitOrPost waitState token) = some w') : PromiseInv vs w' := by
  obtain ⟨hs, hq⟩ := hw
  have huses := hq.uses
  simp only [PromiseWorld.uses] at huses
  simp only [PromiseWorld.step] at h
  split at h
  · cases h
  cases h
  rcases waitOrPost_cases w.expired ⟨w.registrations, token, waitState⟩ w.shared with
    ⟨hp, he⟩ | ⟨hp, -, he⟩ | ⟨hp, -, he⟩ <;> simp only [he]
  · refine ⟨hs, hq.oneWaiter, hq.idle, hq.drained, fun n => ?_⟩
    have := huses n
    simp only [PromiseWorld.uses]
    split at this <;> split <;> omega
  · refine ⟨hs.waiters _ _, ?_, hq.idle, fun h => absurd hp h, fun n => ?_⟩
    · exact Nat.le_trans (List.length_filter_le _ _) hq.oneWaiter
    · have := huses n
      have hle : (w.shared.waiters.filter fun waiter => !w.expired.contains waiter.state).countP
          (fun waiter => waiter.id == n) ≤ _ := List.filter_sublist.countP_le
      simp only [PromiseWorld.uses, pruneExpiredWaitersLocked]
      split at this <;> split <;> omega
  · refine ⟨hs.waiters _ _, by simp, hq.idle, fun h => absurd hp h, fun n => ?_⟩
    have := huses n
    simp only [PromiseWorld.uses, List.countP_singleton, beq_iff_eq]
    split at this <;> split <;> split <;> omega

theorem cancelWait_of_pending {s : AsyncPromiseSharedState β E} (hp : s.terminal = .pending) :
    cancelWait expired waitState s =
      { s with
        waiters := s.waiters.filter fun waiter => !erasedByCancel expired waitState waiter
        waitStarted := !(s.waiters.filter fun waiter =>
          !erasedByCancel expired waitState waiter).isEmpty } :=
  if_neg (not_not.mpr hp)

theorem cancelWait_of_terminal {s : AsyncPromiseSharedState β E} (hp : s.terminal ≠ .pending) :
    cancelWait expired waitState s = s := if_pos hp

theorem PromiseInv.cancelWait {w w' : PromiseWorld α β E} (hw : PromiseInv vs w)
    (h : w.step vs (.cancelWait waitState) = some w') : PromiseInv vs w' := by
  obtain ⟨hs, hq⟩ := hw
  simp only [PromiseWorld.step] at h
  split at h
  · cases h
  cases h
  by_cases hp : w.shared.terminal = .pending
  · rw [if_pos hp, cancelWait_of_pending hp]
    refine ⟨hs.waiters _ _, ?_, hq.idle, fun h => absurd hp h, fun n => ?_⟩
    · exact Nat.le_trans (List.length_filter_le _ _) hq.oneWaiter
    · -- the erased waiters move to `removed`, the others stay
      have hsplit := List.countP_eq_countP_filter_add w.shared.waiters
        (fun waiter => waiter.id == n) (erasedByCancel w.expired waitState)
      have huses := hq.uses n
      simp only [PromiseWorld.uses, List.count_append] at huses ⊢
      rw [List.count_eq_countP (l := List.map _ _), List.countP_map]
      simp only [Function.comp_def] at hsplit ⊢
      omega
  · rw [if_neg hp, cancelWait_of_terminal hp]
    rw [List.map_nil, List.append_nil]
    exact ⟨hs, hq⟩

inductive Completes (vs : ValueStore α β E) :
    (AsyncPromiseSharedState β E → Bool × List AsyncPromiseWaiter × AsyncPromiseSharedState β E) → Prop
  | value (v : α) : Completes vs (trySetValue vs v)
  | exception (e : E) : Completes vs (trySetException e)
  | blocked (reason : String) : Completes vs (trySetBlocked reason)

/-- A completion of a pending state stores an outcome `take_value` can end
with and hands over all waiters. -/
theorem Completes.of_pending {vs : ValueStore α β E}
    {op : AsyncPromiseSharedState β E → Bool × List AsyncPromiseWaiter × AsyncPromiseSharedState β E}
    (hop : Completes vs op) (hs : Settled vs s answers values) (hp : s.terminal = .pending) :
    (op s).1 = true ∧ (op s).2.1 = s.waiters ∧ (op s).2.2.waiters = [] ∧
      (op s).2.2.terminal ≠ .pending ∧ Settled vs (op s).2.2 (answers ++ [true]) values := by
  have hc : s.consumed = false := by
    cases h : s.consumed
    · rfl
    · exact absurd (hs.consumed h) (by simp [hp])
  have hanswers := hs.pending hp
  have htaken := hs.taken
  cases hop with
  | value v =>
    simp only [trySetValue, completeLocked, hp, ne_eq, not_true_eq_false, ↓reduceIte]
    refine ⟨trivial, trivial, trivial, by simp, by simp, fun _ => ⟨0, by simp [hanswers]⟩, ?_, by simp, by simp, by simp, ?_⟩
    · intro _; exact ⟨v, vs.read_emplace v⟩
    · exact htaken
  | exception e =>
    simp only [trySetException, completeLocked, hp, ne_eq, not_true_eq_false, ↓reduceIte]
    refine ⟨trivial, trivial, trivial, by simp, by simp, fun _ => ⟨0, by simp [hanswers]⟩, by simp, ?_, by simp, by simp [hc], ?_⟩
    · intro _; exact ⟨e, rfl⟩
    · exact htaken
  | blocked reason =>
    simp only [trySetBlocked, completeLocked, hp, ne_eq, not_true_eq_false, ↓reduceIte]
    refine ⟨trivial, trivial, trivial, by simp, by simp, fun _ => ⟨0, by simp [hanswers]⟩, by simp, by simp, ?_, by simp [hc], ?_⟩
    · intro _; exact asyncPromiseBlockedReason_ne reason
    · exact htaken

theorem Completes.of_terminal {vs : ValueStore α β E}
    {op : AsyncPromiseSharedState β E → Bool × List AsyncPromiseWaiter × AsyncPromiseSharedState β E}
    (hop : Completes vs op) (hp : s.terminal ≠ .pending) : op s = (false, [], s) := by
  cases hop <;> simp [trySetValue, trySetException, trySetBlocked, completeLocked, hp]

theorem PromiseInv.complete {w : PromiseWorld α β E} (hw : PromiseInv vs w)
    {op : AsyncPromiseSharedState β E → Bool × List AsyncPromiseWaiter × AsyncPromiseSharedState β E}
    (hop : Completes vs op) : PromiseInv vs (w.complete op) := by
  obtain ⟨hs, hq⟩ := hw
  by_cases hp : w.shared.terminal = .pending
  · obtain ⟨hok, hwaiters, hempty, hterm, hsettled⟩ := hop.of_pending hs hp
    have hidle := hq.idle hp
    simp only [PromiseWorld.complete, hok, hwaiters, hidle, List.nil_append]
    refine ⟨hsettled, by simp [hempty], fun h => absurd h hterm, fun _ => hempty, fun n => ?_⟩
    have huses := hq.uses n
    simp only [PromiseWorld.uses, hidle, hempty, List.countP_nil] at huses ⊢
    omega
  · simp only [PromiseWorld.complete, hop.of_terminal hp, List.append_nil]
    obtain ⟨n, hn⟩ := hs.once hp
    refine ⟨⟨fun h => absurd h hp, fun _ => ⟨n + 1, ?_⟩, hs.value, hs.exception, hs.blocked,
      hs.consumed, hs.taken⟩, hq.oneWaiter, hq.idle, hq.drained, hq.uses⟩
    rw [hn, List.cons_append, List.replicate_succ']

theorem PromiseInv.postNext {w w' : PromiseWorld α β E} (hw : PromiseInv vs w)
    (h : w.step vs .postNext = some w') : PromiseInv vs w' := by
  obtain ⟨hs, hq⟩ := hw
  simp only [PromiseWorld.step] at h
  split at h
  · cases h
  · rename_i waiter rest hposting
    cases h
    refine ⟨hs, hq.oneWaiter, fun hp => ?_, hq.drained, fun n => ?_⟩
    · exact absurd (hposting.symm.trans (hq.idle hp)) (by simp)
    · have huses := hq.uses n
      simp only [PromiseWorld.uses, hposting, List.countP_cons, List.count_append] at huses ⊢
      split
      · simp only [List.count_singleton]
        omega
      · simp only [List.count_nil]
        omega

/-- With a settled state `take_value` ends in one of five ways, and only the
first take of a value changes anything. -/
theorem takeValue_cases {vs : ValueStore α β E} (hs : Settled vs s answers values) :
    (s.terminal = .pending ∧ takeValue vs s =
      (.contractViolation "gentest::async::future resumed before completion", s)) ∨
    (∃ e, s.terminal = .exception ∧ s.exception = some e ∧ takeValue vs s = (.rethrown e, s)) ∨
    (s.terminal = .blocked ∧ takeValue vs s = (.blockedException s.blockedReason, s)) ∨
    (∃ v, s.terminal = .value ∧ s.consumed = false ∧ vs.read s.value = some v ∧
      takeValue vs s = (.value v, { s with consumed := true })) ∨
    (s.terminal = .value ∧ s.consumed = true ∧ takeValue vs s =
      (.contractViolation "gentest::async::future value was already consumed", s)) := by
  cases ht : s.terminal with
  | pending => exact .inl ⟨rfl, by simp [takeValue, ht]⟩
  | exception =>
    obtain ⟨e, he⟩ := hs.exception ht
    exact .inr (.inl ⟨e, rfl, he, by simp [takeValue, ht, he]⟩)
  | blocked =>
    have hne := hs.blocked ht
    exact .inr (.inr (.inl ⟨rfl, by simp [takeValue, ht, hne]⟩))
  | value =>
    obtain ⟨v, hv⟩ := hs.value ht
    cases hc : s.consumed with
    | false => exact .inr (.inr (.inr (.inl ⟨v, rfl, rfl, hv, by simp [takeValue, ht, hc, hv]⟩)))
    | true => exact .inr (.inr (.inr (.inr ⟨rfl, rfl, by simp [takeValue, ht, hc]⟩)))

theorem PromiseInv.takeValue {w w' : PromiseWorld α β E} (hw : PromiseInv vs w)
    (h : w.step vs .takeValue = some w') : PromiseInv vs w' := by
  obtain ⟨hs, hq⟩ := hw
  simp only [PromiseWorld.step, Option.some.injEq] at h
  subst h
  have htaken := hs.taken
  rcases takeValue_cases hs with ⟨-, he⟩ | ⟨e, -, -, he⟩ | ⟨-, he⟩ | ⟨v, ht, hc, -, he⟩ | ⟨-, -, he⟩ <;>
    rw [he]
  · exact ⟨⟨hs.pending, hs.once, hs.value, hs.exception, hs.blocked, hs.consumed,
      by simpa [Taken.isValue] using htaken⟩, hq.oneWaiter, hq.idle, hq.drained, hq.uses⟩
  · exact ⟨⟨hs.pending, hs.once, hs.value, hs.exception, hs.blocked, hs.consumed,
      by simpa [Taken.isValue] using htaken⟩, hq.oneWaiter, hq.idle, hq.drained, hq.uses⟩
  · exact ⟨⟨hs.pending, hs.once, hs.value, hs.exception, hs.blocked, hs.consumed,
      by simpa [Taken.isValue] using htaken⟩, hq.oneWaiter, hq.idle, hq.drained, hq.uses⟩
  · refine ⟨⟨hs.pending, hs.once, hs.value, hs.exception, hs.blocked, fun _ => ht, ?_⟩,
      hq.oneWaiter, hq.idle, hq.drained, hq.uses⟩
    simp [htaken, hc, Taken.isValue]
  · exact ⟨⟨hs.pending, hs.once, hs.value, hs.exception, hs.blocked, hs.consumed,
      by simpa [Taken.isValue] using htaken⟩, hq.oneWaiter, hq.idle, hq.drained, hq.uses⟩

theorem PromiseInv.step {w w' : PromiseWorld α β E} (hw : PromiseInv vs w)
    (h : w.step vs a = some w') : PromiseInv vs w' := by
  cases a with
  | waitOrPost waitState token => exact hw.waitOrPost h
  | cancelWait waitState => exact hw.cancelWait h
  | expire waitState => cases h; exact ⟨hw.1, hw.2.oneWaiter, hw.2.idle, hw.2.drained, hw.2.uses⟩
  | trySetValue v => cases h; exact hw.complete (.value v)
  | trySetException e => cases h; exact hw.complete (.exception e)
  | trySetBlocked reason => cases h; exact hw.complete (.blocked reason)
  | abandon => cases h; exact hw.complete (.blocked _)
  | postNext => exact hw.postNext h
  | takeValue => exact hw.takeValue h

theorem PromiseInv.reachable (vs : ValueStore α β E)
    (h : run (PromiseWorld.step vs) (.init vs) steps = some w) : PromiseInv vs w :=
  run_invariant (fun _ _ _ => PromiseInv.step) (.init vs) h

-- ---------------------------------------------------------------------------
-- What a run keeps
-- ---------------------------------------------------------------------------

def AsyncPromiseSharedState.outcome (s : AsyncPromiseSharedState β E) :
    AsyncPromiseTerminal × β × Option E × String :=
  (s.terminal, s.value, s.exception, s.blockedReason)

/-- What later worlds keep of earlier ones: the outcome once there is one, and
every waiter handed over until it is posted or has no use for it. -/
structure Kept (w w' : PromiseWorld α β E) : Prop where
  outcome : w.shared.terminal ≠ .pending → w'.shared.outcome = w.shared.outcome
  expired : w.expired ⊆ w'.expired
  posted : w.posted ⊆ w'.posted
  posting : ∀ waiter ∈ w.posting, waiter.token.isSome →
    waiter ∈ w'.posting ∨ waiter.id ∈ w'.posted ∨ waiter.state ∈ w'.expired

theorem Kept.refl (w : PromiseWorld α β E) : Kept w w :=
  ⟨fun _ => rfl, List.Subset.refl _, List.Subset.refl _, fun _ h _ => .inl h⟩

theorem Kept.trans {u v w : PromiseWorld α β E} (huv : Kept u v) (hvw : Kept v w) : Kept u w where
  outcome h := by
    have heq := huv.outcome h
    have hv : v.shared.terminal ≠ .pending := by
      rw [show v.shared.terminal = u.shared.terminal from congrArg Prod.fst heq]
      exact h
    exact (hvw.outcome hv).trans heq
  expired := List.Subset.trans huv.expired hvw.expired
  posted := List.Subset.trans huv.posted hvw.posted
  posting waiter h htoken := by
    rcases huv.posting waiter h htoken with h | h | h
    · exact hvw.posting waiter h htoken
    · exact .inr (.inl (hvw.posted h))
    · exact .inr (.inr (hvw.expired h))

theorem waitOrPost_outcome (expired : List Nat) (waiter : AsyncPromiseWaiter)
    (s : AsyncPromiseSharedState β E) : (waitOrPost expired waiter s).2.outcome = s.outcome := by
  rcases waitOrPost_cases expired waiter s with ⟨-, he⟩ | ⟨-, -, he⟩ | ⟨-, -, he⟩ <;> simp [he, AsyncPromiseSharedState.outcome, pruneExpiredWaitersLocked]

theorem cancelWait_outcome (expired : List Nat) (waitState : Nat) (s : AsyncPromiseSharedState β E) :
    (cancelWait expired waitState s).outcome = s.outcome := by
  unfold cancelWait
  split <;> rfl

theorem takeValue_outcome {vs : ValueStore α β E} (hs : Settled vs s answers values) :
    (takeValue vs s).2.outcome = s.outcome := by
  rcases takeValue_cases hs with ⟨-, he⟩ | ⟨e, -, -, he⟩ | ⟨-, he⟩ | ⟨v, -, -, -, he⟩ | ⟨-, -, he⟩ <;>
    simp [he, AsyncPromiseSharedState.outcome]

theorem Kept.complete (vs : ValueStore α β E) {w : PromiseWorld α β E}
    {op : AsyncPromiseSharedState β E → Bool × List AsyncPromiseWaiter × AsyncPromiseSharedState β E}
    (hop : Completes vs op) : Kept w (w.complete op) where
  outcome h := by simp [PromiseWorld.complete, hop.of_terminal h]
  expired := List.Subset.refl _
  posted := List.Subset.refl _
  posting _ h _ := .inl (List.mem_append_left _ h)

theorem Kept.postNext {w w' : PromiseWorld α β E} (h : w.step vs .postNext = some w') : Kept w w' := by
  simp only [PromiseWorld.step] at h
  split at h
  · cases h
  · rename_i next rest hposting
    cases h
    refine ⟨fun _ => rfl, List.Subset.refl _, List.subset_append_left _ _, fun waiter hmem htoken => ?_⟩
    rw [hposting] at hmem
    cases hmem with
    | tail _ hmem => exact .inl hmem
    | head =>
      right
      by_cases hexp : next.state ∈ w.expired
      · exact .inr hexp
      · exact .inl (by simp [hexp, htoken])

theorem Kept.step {w w' : PromiseWorld α β E} (hw : PromiseInv vs w)
    (h : w.step vs a = some w') : Kept w w' := by
  cases a with
  | waitOrPost waitState token =>
    simp only [PromiseWorld.step] at h
    split at h
    · cases h
    cases h
    exact ⟨fun _ => waitOrPost_outcome .., List.Subset.refl _, List.Subset.refl _, fun _ h _ => .inl h⟩
  | cancelWait waitState =>
    simp only [PromiseWorld.step] at h
    split at h
    · cases h
    cases h
    exact ⟨fun _ => cancelWait_outcome .., List.Subset.refl _, List.Subset.refl _, fun _ h _ => .inl h⟩
  | expire waitState =>
    cases h
    exact ⟨fun _ => rfl, List.subset_cons_self _ _, List.Subset.refl _, fun _ h _ => .inl h⟩
  | trySetValue v => cases h; exact .complete vs (.value v)
  | trySetException e => cases h; exact .complete vs (.exception e)
  | trySetBlocked reason => cases h; exact .complete vs (.blocked reason)
  | abandon => cases h; exact .complete vs (.blocked _)
  | postNext => exact .postNext h
  | takeValue =>
    cases h
    exact ⟨fun _ => takeValue_outcome hw.1, List.Subset.refl _, List.Subset.refl _, fun _ h _ => .inl h⟩

theorem Kept.run {w w' : PromiseWorld α β E} (hw : PromiseInv vs w)
    (h : run (PromiseWorld.step vs) w steps = some w') : Kept w w' :=
  run_rel .refl (fun _ _ _ => .trans) (fun _ _ _ => PromiseInv.step) (fun _ _ _ => Kept.step) hw h

-- ---------------------------------------------------------------------------
-- The operations over a whole run
-- ---------------------------------------------------------------------------

def PromiseStep.completion (vs : ValueStore α β E) : PromiseStep α E →
    Option (AsyncPromiseSharedState β E → Bool × List AsyncPromiseWaiter × AsyncPromiseSharedState β E)
  | .trySetValue v => some (Async.trySetValue vs v)
  | .trySetException e => some (Async.trySetException e)
  | .trySetBlocked reason => some (Async.trySetBlocked reason)
  | .abandon => some Async.abandon
  | _ => none

theorem PromiseStep.completes {a : PromiseStep α E} (h : a.completion vs = some op) :
    Completes vs op := by
  cases a <;> cases h
  · exact .value _
  · exact .exception _
  · exact .blocked _
  · exact .blocked _

theorem PromiseStep.completion_step {a : PromiseStep α E} (h : a.completion vs = some op)
    (w : PromiseWorld α β E) : w.step vs a = some (w.complete op) := by
  cases a <;> cases h <;> rfl

theorem PromiseInv.posted_le_one {w : PromiseWorld α β E} (hw : PromiseInv vs w) (n : Nat) :
    w.posted.count n ≤ 1 := by
  have huses := hw.2.uses n
  unfold PromiseWorld.uses at huses
  split at huses <;> omega

theorem PromiseInv.not_posted_of_removed {w : PromiseWorld α β E} (hw : PromiseInv vs w)
    (hn : n ∈ w.removed) : n ∉ w.posted := by
  intro hposted
  have huses := hw.2.uses n
  have hremoved := List.count_pos_iff.mpr hn
  have hcount := List.count_pos_iff.mpr hposted
  unfold PromiseWorld.uses at huses
  split at huses <;> omega

theorem PromiseInv.posts_waiters {w w' : PromiseWorld α β E} (hw : PromiseInv vs w)
    (hp : w.shared.terminal = .pending) (ha : PromiseStep.completion vs a = some op)
    (h : run (PromiseWorld.step vs) w (a :: steps) = some w') (hdone : w'.posting = [])
    (hmem : waiter ∈ w.shared.waiters) (htoken : waiter.token.isSome)
    (hlive : waiter.state ∉ w'.expired) : w'.posted.count waiter.id = 1 := by
  have hw' : PromiseInv vs w' := run_invariant (fun _ _ _ => PromiseInv.step) hw h
  obtain ⟨v, hv, hrun⟩ := Interleaving.run_cons.mp h
  rw [PromiseStep.completion_step ha, Option.some.injEq] at hv
  subst hv
  have hop := PromiseStep.completes ha
  obtain ⟨-, hwaiters, -⟩ := hop.of_pending hw.1 hp
  have hposting : waiter ∈ (w.complete op).posting := by
    simp [PromiseWorld.complete, hwaiters, hmem]
  have hmem' : waiter.id ∈ w'.posted := by
    rcases (Kept.run (hw.complete hop) hrun).posting waiter hposting htoken with h | h | h
    · simp [hdone] at h
    · exact h
    · exact absurd h hlive
  have hle := hw'.posted_le_one waiter.id
  have hpos := List.count_pos_iff.mpr hmem'
  omega

theorem PromiseInv.value_available {w w' : PromiseWorld α β E} (hw : PromiseInv vs w)
    (hp : w.shared.terminal = .pending)
    (h : run (PromiseWorld.step vs) w (.trySetValue v :: steps) = some w')
    (htaken : w'.taken = w.taken) :
    (∀ waiter, (Async.waitOrPost w'.expired waiter w'.shared).1 = .ready) ∧
      (Async.takeValue vs w'.shared).1 = .value v := by
  have hw' : PromiseInv vs w' := run_invariant (fun _ _ _ => PromiseInv.step) hw h
  obtain ⟨u, hu, hrun⟩ := Interleaving.run_cons.mp h
  cases hu
  have hset : (w.complete (trySetValue vs v)).shared.outcome =
      (.value, vs.emplace v, w.shared.exception, w.shared.blockedReason) := by
    simp [PromiseWorld.complete, trySetValue, completeLocked, hp, AsyncPromiseSharedState.outcome]
  have hkept := (Kept.run (hw.complete (.value v)) hrun).outcome (by
    rw [show (w.complete (trySetValue vs v)).shared.terminal = .value from congrArg Prod.fst hset]
    simp)
  rw [hset] at hkept
  have hterm : w'.shared.terminal = .value := congrArg Prod.fst hkept
  have hvalue : w'.shared.value = vs.emplace v := congrArg (fun o => o.2.1) hkept
  have hconsumed : w'.shared.consumed = false := by
    have hbefore : w.shared.consumed = false := by
      cases hc : w.shared.consumed
      · rfl
      · exact absurd (hw.1.consumed hc) (by simp [hp])
    have hcount := hw'.1.taken
    rw [htaken, hw.1.taken, hbefore] at hcount
    cases hc : w'.shared.consumed
    · rfl
    · simp [hc] at hcount
  exact ⟨fun _ => by simp [Async.waitOrPost, hterm],
    by simp [Async.takeValue, hterm, hconsumed, hvalue, vs.read_emplace]⟩

/-- The promise and future state machine, in every world an interleaving
reaches and every world reached from there. -/
theorem promise_state_machine (vs : ValueStore α β E)
    (h : run (PromiseWorld.step vs) (.init vs) before = some w) :
    -- exactly the first completion succeeds and its outcome stays
    (w.shared.terminal = .pending ∧ w.completions = [] ∨
      w.shared.terminal ≠ .pending ∧ ∃ n, w.completions = true :: List.replicate n false) ∧
    (w.shared.terminal ≠ .pending → ∀ after w', run (PromiseWorld.step vs) w after = some w' →
      w'.shared.outcome = w.shared.outcome) ∧
    -- one live waiter while pending
    (w.shared.terminal = .pending →
      (w.shared.waiters.filter fun waiter => !w.expired.contains waiter.state).length ≤ 1 ∧
      ∀ waiter, (waitOrPost w.expired waiter w.shared).1 = .alreadyWaiting ↔
        ∃ live ∈ w.shared.waiters, live.state ∉ w.expired) ∧
    -- a completion posts every live waiter once, and none that was removed
    (w.shared.terminal = .pending → ∀ a, (PromiseStep.completion vs a).isSome → ∀ after w',
      run (PromiseWorld.step vs) w (a :: after) = some w' → w'.posting = [] →
      ∀ waiter ∈ w.shared.waiters, waiter.token.isSome → waiter.state ∉ w'.expired →
        w'.posted.count waiter.id = 1) ∧
    (∀ n, w.posted.count n ≤ 1) ∧ (∀ n ∈ w.removed, n ∉ w.posted) ∧
    -- taking the outcome
    w.taken.countP Taken.isValue ≤ 1 ∧
    (w.shared.terminal = .exception →
      ∃ e, w.shared.exception = some e ∧ (takeValue vs w.shared).1 = .rethrown e) ∧
    (w.shared.terminal = .blocked → w.shared.blockedReason ≠ "" ∧
      (takeValue vs w.shared).1 = .blockedException w.shared.blockedReason) ∧
    -- a value set after a timed wait gave up is there for the next wait
    (w.shared.terminal = .pending → ∀ v after w',
      run (PromiseWorld.step vs) w (.trySetValue v :: after) = some w' → w'.taken = w.taken →
      (∀ waiter, (waitOrPost w'.expired waiter w'.shared).1 = .ready) ∧
        (takeValue vs w'.shared).1 = .value v) := by
  have hw := PromiseInv.reachable vs h
  refine ⟨?_, fun hp after w' hrun => (Kept.run hw hrun).outcome hp, fun hp => ⟨?_, fun waiter => ?_⟩,
    ?_, hw.posted_le_one, fun n hn => hw.not_posted_of_removed hn, ?_, fun ht => ?_, fun ht => ?_,
    fun hp v after w' hrun htaken => hw.value_available hp hrun htaken⟩
  · by_cases hp : w.shared.terminal = .pending
    · exact .inl ⟨hp, hw.1.pending hp⟩
    · exact .inr ⟨hp, hw.1.once hp⟩
  · exact Nat.le_trans (List.length_filter_le _ _) hw.2.oneWaiter
  · rcases waitOrPost_cases w.expired waiter w.shared with ⟨hn, -⟩ | ⟨-, hlive, he⟩ | ⟨-, hstale, he⟩
    · exact absurd hp hn
    · exact ⟨fun _ => hlive, fun _ => by rw [he]⟩
    · constructor
      · intro h
        simp [he] at h
      · rintro ⟨live, hmem, hlive⟩
        exact absurd (hstale live hmem) hlive
  · intro hp a ha after w' hrun hdone waiter hmem htoken hlive
    obtain ⟨op, hop⟩ := Option.isSome_iff_exists.mp ha
    exact hw.posts_waiters hp hop hrun hdone hmem htoken hlive
  · have htaken := hw.1.taken
    split at htaken <;> omega
  · rcases takeValue_cases hw.1 with ⟨hn, -⟩ | ⟨e, -, he, hv⟩ | ⟨hn, -⟩ | ⟨v, hn, -⟩ | ⟨hn, -⟩
    · simp [ht] at hn
    · exact ⟨e, he, by rw [hv]⟩
    · simp [ht] at hn
    · simp [ht] at hn
    · simp [ht] at hn
  · refine ⟨hw.1.blocked ht, ?_⟩
    rcases takeValue_cases hw.1 with ⟨hn, -⟩ | ⟨e, hn, -⟩ | ⟨-, hv⟩ | ⟨v, hn, -⟩ | ⟨hn, -⟩
    · simp [ht] at hn
    · simp [ht] at hn
    · rw [hv]
    · simp [ht] at hn
    · simp [ht] at hn

/-- A timed wait registers, gives up, and the promise completes: the value is
there for the next wait. -/
theorem promise_state_machine_timed_out :
    ∃ w, run (PromiseWorld.step (.payload Nat Unit)) (.init (.payload Nat Unit))
        [.waitOrPost 0 (some 0), .cancelWait 0] = some w ∧
      w.shared.terminal = .pending ∧ w.removed = [0] ∧
      ∀ w', run (PromiseWorld.step (.payload Nat Unit)) w [.trySetValue 7] = some w' →
        w'.taken = w.taken → (takeValue (.payload Nat Unit) w'.shared).1 = .value 7 := by
  have hreach : ∃ w, run (PromiseWorld.step (.payload Nat Unit)) (.init (.payload Nat Unit))
      [.waitOrPost 0 (some 0), .cancelWait 0] = some w ∧
      w.shared.terminal = .pending ∧ w.removed = [0] := ⟨_, rfl, rfl, rfl⟩
  obtain ⟨w, hbefore, hp, hremoved⟩ := hreach
  obtain ⟨-, -, -, -, -, -, -, -, -, hvalue⟩ := promise_state_machine _ hbefore
  exact ⟨w, hbefore, hp, hremoved, fun w' hrun htaken => (hvalue hp 7 [] w' hrun htaken).2⟩

end

end Gentest.Async
