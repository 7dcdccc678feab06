import Gentest.Lib.Interleaving
import Mathlib.Logic.Function.Basic
import Mathlib.Data.List.Perm.Basic

/-!
# Keyed events

`event<T>` keeps a slot per key. A `set` stores the payload, marks the slot
ready and swaps its waiters out under the lock, then posts them one by one
while other threads go on. Awaitables are numbered: each has its own wait
state, its key (`key n` below, fixed when it is made) and its registered flag.

The record of a run numbers the calls of `set` and the registrations, so that
"the first set on `k` after the registration" can be said.
-/

namespace Gentest.Async.Event

open Interleaving (run run_invariant)

/-- `id` numbers the registration; the source has the other two fields. -/
structure Waiter where
  id : Nat
  token : Option Nat
  state : Nat
  deriving DecidableEq, Repr

structure Slot (α : Type) where
  ready : Bool := false
  value : Option α := none
  waiters : List Waiter := []
  deriving DecidableEq, Repr

abbrev Slots (α : Type) := String → Option (Slot α)

section
variable {α : Type}

/-- `slots_[key]`, which makes the slot where there is none. -/
def Slots.at (slots : Slots α) (key : String) : Slot α := (slots key).getD {}

/-- The address of the payload in a key's slot; slots are never erased, so the
key stands for the address. -/
def valuePtr (key : String) (slot : Slot α) : Option String :=
  if slot.value.isSome then some key else none

/-- The locked section of `set_default` and `set_value`: the waiters to post,
the payload's address and the slots left. -/
def setLocked (key : String) (payload : α) (slots : Slots α) :
    List Waiter × Option String × Slots α :=
  let slot := { slots.at key with value := some payload, ready := true }
  (slot.waiters, valuePtr key slot, Function.update slots key (some { slot with waiters := [] }))

def setDefault [Inhabited α] (key : String) : Slots α → List Waiter × Option String × Slots α :=
  setLocked key default

def setValue (key : String) (value : α) : Slots α → List Waiter × Option String × Slots α :=
  setLocked key value

def reset (key : String) (slots : Slots α) : Slots α :=
  match slots key with
  | none => slots
  | some slot => Function.update slots key (some { slot with ready := false })

def resetAll (slots : Slots α) : Slots α := fun key =>
  (slots key).map fun slot => { slot with ready := false }

/-- The payload's address where `await_ready` answers true. -/
def awaitReady (key : String) (slots : Slots α) : Option (Option String) :=
  match slots key with
  | none => none
  | some slot => if slot.ready then some (valuePtr key slot) else none

/-- The payload's address where the slot is ready by now and the caller posts
itself; otherwise the waiter is queued. -/
def awaitSuspendWithToken (key : String) (waiter : Waiter) (slots : Slots α) :
    Option (Option String) × Slots α :=
  let slot := slots.at key
  if slot.ready then (some (valuePtr key slot), Function.update slots key (some slot))
  else
    (none, Function.update slots key (some { slot with waiters := slot.waiters ++ [waiter] }))

def cancelWait (expired : List Nat) (key : String) (state : Nat) (slots : Slots α) : Slots α :=
  match slots key with
  | none => slots
  | some slot =>
    Function.update slots key (some { slot with
      waiters := slot.waiters.filter fun waiter =>
        !(expired.contains waiter.state || waiter.state == state) })

def awaitResume (value : Option String) : Except String String :=
  match value with
  | none => .error "gentest::async::event resumed without payload slot"
  | some key => .ok key

-- ---------------------------------------------------------------------------
-- Interleavings
-- ---------------------------------------------------------------------------

/-- A waiter a `set` swapped out and has still to post. -/
structure Post where
  set : Nat
  payload : Option String
  waiter : Waiter
  deriving DecidableEq, Repr

/-- What was registered, and how many sets and cancellations came before. -/
structure Registration where
  state : Nat
  token : Option Nat
  setsBefore : Nat
  cancelsBefore : Nat
  deriving DecidableEq, Repr

/-- One atomic step of some thread. `postNext i` is a thread in `post_waiters`
going on with the `i`-th waiter that is still to be posted. -/
inductive Step (α : Type)
  | setDefault (key : String)
  | setValue (key : String) (value : α)
  | reset (key : String)
  | resetAll
  | awaitReady (state : Nat)
  | awaitSuspendWithToken (state : Nat) (token : Option Nat)
  | cancelWait (state : Nat)
  | expire (state : Nat)
  | postNext (i : Nat)
  deriving DecidableEq, Repr

structure World (α : Type) where
  slots : Slots α := fun _ => none
  /-- `state_->value` of each awaitable. -/
  value : Nat → Option String := fun _ => none
  /-- `registered_` of each awaitable. -/
  registered : Nat → Bool := fun _ => false
  expired : List Nat := []
  posting : List Post := []
  /-- The keys of the calls of `set`, latest last. -/
  sets : List String := []
  /-- The awaitables `cancel_wait` removed, latest last. -/
  cancels : List Nat := []
  registrations : List Registration := []
  /-- The registrations whose token was posted, and the call of `set` that
  posted it. -/
  posted : List (Nat × Nat) := []
  /-- The awaitables posted or found ready, whose coroutine goes on. -/
  resumable : List Nat := []

def World.set (w : World α) (key : String)
    (op : Slots α → List Waiter × Option String × Slots α) : World α :=
  let out := op w.slots
  { w with
    slots := out.2.2
    posting := w.posting ++ out.1.map fun waiter => ⟨w.sets.length, out.2.1, waiter⟩
    sets := w.sets ++ [key] }

def World.post (w : World α) (i : Nat) (post : Post) : World α :=
  -- an expired wait state has its token canceled instead
  let alive := !w.expired.contains post.waiter.state
  let posts := alive && post.waiter.token.isSome
  { w with
    posting := w.posting.eraseIdx i
    value := if alive then Function.update w.value post.waiter.state post.payload else w.value
    posted := if posts then w.posted ++ [(post.waiter.id, post.set)] else w.posted
    resumable := if posts then post.waiter.state :: w.resumable else w.resumable }

def World.step [Inhabited α] (key : Nat → String) (w : World α) : Step α → Option (World α)
  | .setDefault k => some (w.set k (setDefault k))
  | .setValue k value => some (w.set k (setValue k value))
  | .reset k => some { w with slots := Event.reset k w.slots }
  | .resetAll => some { w with slots := Event.resetAll w.slots }
  | .awaitReady state =>
    if w.expired.contains state then none
    else match Event.awaitReady (key state) w.slots with
      | none => some w
      | some value => some { w with
          value := Function.update w.value state value
          resumable := state :: w.resumable }
  | .awaitSuspendWithToken state token =>
    if w.expired.contains state then none
    else match Event.awaitSuspendWithToken (key state) ⟨w.registrations.length, token, state⟩ w.slots with
      | (some value, slots) => some { w with
          slots := slots
          value := Function.update w.value state value
          resumable := state :: w.resumable }
      | (none, slots) => some { w with
          slots := slots
          registered := Function.update w.registered state true
          registrations :=
            w.registrations ++ [⟨state, token, w.sets.length, w.cancels.length⟩] }
  | .cancelWait state =>
    if w.expired.contains state then none
    else if !w.registered state then some w
    else some { w with
      slots := Event.cancelWait w.expired (key state) state w.slots
      registered := Function.update w.registered state false
      cancels := w.cancels ++ [state] }
  | .expire state => some { w with expired := state :: w.expired }
  | .postNext i =>
    match w.posting[i]? with
    | none => none
    | some post =>
      -- each thread posts its own waiters in order
      if (w.posting.take i).any fun other => other.set == post.set then none
      else some (w.post i post)

-- ---------------------------------------------------------------------------
-- Which set posts a registration
-- ---------------------------------------------------------------------------

/-- The `j`-th call of `set` is the first on `key` from the `before`-th on. -/
def IsFirstSet (sets : List String) (key : String) (before j : Nat) : Prop :=
  before ≤ j ∧ sets[j]? = some key ∧ ∀ i, before ≤ i → i < j → sets[i]? ≠ some key

def NotSetSince (sets : List String) (key : String) (before : Nat) : Prop :=
  ∀ i, before ≤ i → sets[i]? ≠ some key

theorem IsFirstSet.append (h : IsFirstSet sets key before j) (k : String) :
    IsFirstSet (sets ++ [k]) key before j := by
  obtain ⟨hle, hj, hmin⟩ := h
  have hlt : j < sets.length := (List.getElem?_eq_some_iff.mp hj).1
  refine ⟨hle, by rw [List.getElem?_append_left hlt, hj], fun i hi hij => ?_⟩
  rw [List.getElem?_append_left (by omega)]
  exact hmin i hi hij

theorem IsFirstSet.unique (h : IsFirstSet sets key before i) (h' : IsFirstSet sets key before j) :
    i = j := by
  by_contra hne
  rcases Nat.lt_or_gt_of_ne hne with hlt | hlt
  · exact h'.2.2 i h.1 hlt h.2.1
  · exact h.2.2 j h'.1 hlt h'.2.1

theorem NotSetSince.append (h : NotSetSince sets key before) (hne : k ≠ key) :
    NotSetSince (sets ++ [k]) key before := by
  intro i hi
  rcases Nat.lt_or_ge i sets.length with hlt | hge
  · rw [List.getElem?_append_left hlt]
    exact h i hi
  · rw [List.getElem?_append_right hge]
    cases i - sets.length <;> simp [hne]

theorem NotSetSince.firstSet (h : NotSetSince sets key before) (hle : before ≤ sets.length) :
    IsFirstSet (sets ++ [key]) key before sets.length := by
  refine ⟨hle, by simp, fun i hi hlt => ?_⟩
  rw [List.getElem?_append_left hlt]
  exact h i hi

theorem NotSetSince.not_firstSet (h : NotSetSince sets key before) : ¬IsFirstSet sets key before j :=
  fun hfirst => h j hfirst.1 hfirst.2.1

-- ---------------------------------------------------------------------------
-- The invariant
-- ---------------------------------------------------------------------------

def Engaged (slots : Slots α) (key : String) : Prop := (slots.at key).value.isSome = true

/-- Nothing removed the registration since: no `cancel_wait` of its awaitable,
which is alive and gave a token. -/
def Registration.live (r : Registration) (w : World α) : Prop :=
  r.token.isSome = true ∧ r.state ∉ w.expired ∧ r.state ∉ w.cancels.drop r.cancelsBefore

/-- Waiter `waiter` is the one registration `r` queued. -/
def Registration.Queues (r : Registration) (waiter : Waiter) : Prop :=
  r.state = waiter.state ∧ r.token = waiter.token

/-- A ready slot has nobody to wake and a payload; payload addresses held
anywhere are those of the holder's own key, with a payload there. -/
structure Payloads (key : Nat → String) (w : World α) : Prop where
  ready : ∀ k, (w.slots.at k).ready = true → (w.slots.at k).waiters = [] ∧ Engaged w.slots k
  value : ∀ state k, w.value state = some k → k = key state ∧ Engaged w.slots k
  resumable : ∀ state ∈ w.resumable, (w.value state).isSome = true
  posting : ∀ post ∈ w.posting,
    post.payload = some (key post.waiter.state) ∧ Engaged w.slots (key post.waiter.state)

/-- Every waiter is where its registration says: queued under its key while no
set came, with the first set after that. -/
structure Located (key : Nat → String) (w : World α) : Prop where
  before : ∀ r ∈ w.registrations,
    r.setsBefore ≤ w.sets.length ∧ r.cancelsBefore ≤ w.cancels.length
  waiting : ∀ k, ∀ waiter ∈ (w.slots.at k).waiters, key waiter.state = k ∧
    ∃ r, w.registrations[waiter.id]? = some r ∧ r.Queues waiter ∧ NotSetSince w.sets k r.setsBefore
  posting : ∀ post ∈ w.posting, ∃ r, w.registrations[post.waiter.id]? = some r ∧
    r.Queues post.waiter ∧ IsFirstSet w.sets (key r.state) r.setsBefore post.set
  posted : ∀ n j, (n, j) ∈ w.posted → ∃ r, w.registrations[n]? = some r ∧
    IsFirstSet w.sets (key r.state) r.setsBefore j

/-- How often registration `n` of `r` is queued, to be posted or posted. -/
def World.uses (key : Nat → String) (w : World α) (n : Nat) (r : Registration) : Nat :=
  (w.slots.at (key r.state)).waiters.countP (fun waiter => waiter.id == n) +
    w.posting.countP (fun post => post.waiter.id == n) + w.posted.countP (fun p => p.1 == n)

/-- No registration is there twice, and none that is live is lost. -/
structure Counted (key : Nat → String) (w : World α) : Prop where
  once : ∀ n r, w.registrations[n]? = some r → w.uses key n r ≤ 1
  kept : ∀ n r, w.registrations[n]? = some r → r.live w → 0 < w.uses key n r

structure Inv (key : Nat → String) (w : World α) : Prop where
  payloads : Payloads key w
  located : Located key w
  counted : Counted key w

-- ---------------------------------------------------------------------------
-- What the locked sections leave in each slot
-- ---------------------------------------------------------------------------

theorem update_at (slots : Slots α) (key : String) (slot : Slot α) (k : String) :
    Slots.at (Function.update slots key (some slot)) k = if k = key then slot else slots.at k := by
  by_cases h : k = key
  · simp [Slots.at, h]
  · simp [Slots.at, h]

theorem reset_at (slots : Slots α) (key k : String) :
    (reset key slots).at k =
      if k = key then { slots.at k with ready := false } else slots.at k := by
  unfold reset
  split
  · rename_i h
    split
    · simp [Slots.at, *]
    · rfl
  · rename_i slot h
    rw [update_at]
    split
    · simp [Slots.at, *]
    · rfl

theorem resetAll_at (slots : Slots α) (k : String) :
    (resetAll slots).at k = { slots.at k with ready := false } := by
  simp only [resetAll, Slots.at]
  cases slots k <;> rfl

theorem cancelWait_at (expired : List Nat) (slots : Slots α) (key : String) (state : Nat) (k : String) :
    (cancelWait expired key state slots).at k =
      if k = key then { slots.at k with
        waiters := (slots.at k).waiters.filter fun waiter =>
          !(expired.contains waiter.state || waiter.state == state) }
      else slots.at k := by
  unfold cancelWait
  split
  · rename_i h
    split
    · simp [Slots.at, *]
    · rfl
  · rename_i slot h
    rw [update_at]
    split
    · simp [Slots.at, *]
    · rfl

theorem setLocked_spec (key : String) (payload : α) (slots : Slots α) :
    (setLocked key payload slots).1 = (slots.at key).waiters ∧
    (setLocked key payload slots).2.1 = some key ∧
    ∀ k, (setLocked key payload slots).2.2.at k =
      if k = key then { ready := true, value := some payload, waiters := [] } else slots.at k := by
  refine ⟨rfl, rfl, fun k => ?_⟩
  simp only [setLocked, update_at]

theorem awaitReady_eq_some (h : awaitReady key slots = some value) :
    (Slots.at slots key : Slot α).ready = true ∧ value = valuePtr key (slots.at key) := by
  unfold awaitReady at h
  split at h
  · cases h
  · rename_i slot hslot
    split at h
    · cases h
      simp [Slots.at, *]
    · cases h

theorem awaitSuspendWithToken_cases (key : String) (waiter : Waiter) (slots : Slots α) :
    ((slots.at key).ready = true ∧ ∃ slots', (∀ k, Slots.at slots' k = slots.at k) ∧
      awaitSuspendWithToken key waiter slots = (some (valuePtr key (slots.at key)), slots')) ∨
    ((slots.at key).ready = false ∧ ∃ slots', (∀ k, Slots.at slots' k =
        if k = key then { slots.at k with waiters := (slots.at k).waiters ++ [waiter] }
        else slots.at k) ∧
      awaitSuspendWithToken key waiter slots = (none, slots')) := by
  unfold awaitSuspendWithToken
  cases hready : (slots.at key).ready with
  | true =>
    refine .inl ⟨rfl, _, fun k => ?_, if_pos hready⟩
    rw [update_at]
    split
    · rw [‹k = key›]
    · rfl
  | false =>
    refine .inr ⟨rfl, _, fun k => ?_, if_neg (by simp [hready])⟩
    rw [update_at]
    split
    · rw [‹k = key›]
    · rfl

theorem valuePtr_of_engaged (h : Engaged slots key) :
    valuePtr key (Slots.at slots key : Slot α) = some key := if_pos h

-- ---------------------------------------------------------------------------
-- The steps keep the invariant
-- ---------------------------------------------------------------------------

variable {key : Nat → String} {w : World α}

theorem Inv.init : Inv key ({} : World α) := by
  refine ⟨⟨?_, ?_, ?_, ?_⟩, ⟨?_, ?_, ?_, ?_⟩, ⟨?_, ?_⟩⟩ <;> simp [Slots.at]

theorem Inv.unready (hw : Inv key w) {slots : Slots α}
    (hslots : ∀ k, (slots.at k).waiters = (w.slots.at k).waiters ∧
      (slots.at k).value = (w.slots.at k).value ∧
      ((slots.at k).ready = true → (w.slots.at k).ready = true)) :
    Inv key { w with slots := slots } := by
  have hengaged : ∀ k, Engaged w.slots k → Engaged slots k := fun k h => by
    unfold Engaged at h ⊢
    rw [(hslots k).2.1]
    exact h
  obtain ⟨hp, hl, hc⟩ := hw
  refine ⟨⟨fun k hk => ?_, fun state k h => ?_, hp.resumable, fun post h => ?_⟩,
    ⟨hl.before, fun k waiter h => ?_, hl.posting, hl.posted⟩, ⟨fun n r hr => ?_, fun n r hr hlive => ?_⟩⟩
  · obtain ⟨hnil, hval⟩ := hp.ready k ((hslots k).2.2 hk)
    exact ⟨by rw [(hslots k).1, hnil], hengaged k hval⟩
  · exact ⟨(hp.value state k h).1, hengaged k (hp.value state k h).2⟩
  · exact ⟨(hp.posting post h).1, hengaged _ (hp.posting post h).2⟩
  · rw [(hslots k).1] at h
    exact hl.waiting k waiter h
  · simp only [World.uses, (hslots _).1]
    exact hc.once n r hr
  · simp only [World.uses, (hslots _).1]
    exact hc.kept n r hr hlive

theorem Inv.found (hw : Inv key w) (hready : (w.slots.at (key state)).ready = true) :
    Inv key { w with
      value := Function.update w.value state (valuePtr (key state) (w.slots.at (key state)))
      resumable := state :: w.resumable } := by
  obtain ⟨hp, hl, hc⟩ := hw
  have hengaged := (hp.ready _ hready).2
  rw [valuePtr_of_engaged hengaged]
  refine ⟨⟨hp.ready, fun other k h => ?_, fun other h => ?_, hp.posting⟩,
    ⟨hl.before, hl.waiting, hl.posting, hl.posted⟩, ⟨hc.once, hc.kept⟩⟩
  · by_cases hs : other = state
    · subst hs
      simp only [Function.update_self, Option.some.injEq] at h
      subst h
      exact ⟨rfl, hengaged⟩
    · simp only [Function.update_of_ne hs] at h
      exact hp.value other k h
  · by_cases hs : other = state
    · simp [hs]
    · simp only [Function.update_of_ne hs]
      exact hp.resumable other (by simpa [hs] using h)

theorem Located.lt_registrations (hl : Located key w) (hmem : waiter ∈ (w.slots.at k).waiters) :
    waiter.id < w.registrations.length := by
  obtain ⟨-, r, hr, -⟩ := hl.waiting k waiter hmem
  exact (List.getElem?_eq_some_iff.mp hr).1

theorem Located.posting_lt_registrations (hl : Located key w) (hmem : post ∈ w.posting) :
    post.waiter.id < w.registrations.length := by
  obtain ⟨r, hr, -⟩ := hl.posting post hmem
  exact (List.getElem?_eq_some_iff.mp hr).1

theorem Located.posted_lt_registrations (hl : Located key w) (hmem : (n, j) ∈ w.posted) :
    n < w.registrations.length := by
  obtain ⟨r, hr, -⟩ := hl.posted n j hmem
  exact (List.getElem?_eq_some_iff.mp hr).1

theorem Located.fresh_uses (hl : Located key w) (r : Registration) :
    w.uses key w.registrations.length r = 0 := by
  have hslot : ∀ waiter ∈ (w.slots.at (key r.state)).waiters, waiter.id ≠ w.registrations.length :=
    fun waiter h => Nat.ne_of_lt (hl.lt_registrations h)
  have hposting : ∀ post ∈ w.posting, post.waiter.id ≠ w.registrations.length :=
    fun post h => Nat.ne_of_lt (hl.posting_lt_registrations h)
  have hposted : ∀ p ∈ w.posted, p.1 ≠ w.registrations.length :=
    fun p h => Nat.ne_of_lt (hl.posted_lt_registrations (n := p.1) (j := p.2) h)
  simp only [World.uses, Nat.add_eq_zero_iff, List.countP_eq_zero, beq_iff_eq]
  exact ⟨⟨hslot, hposting⟩, hposted⟩

theorem Inv.queue (hw : Inv key w) {slots : Slots α} {state : Nat} {token : Option Nat}
    (hready : (w.slots.at (key state)).ready = false)
    (hslots : ∀ k, slots.at k = if k = key state then
      { w.slots.at k with waiters := (w.slots.at k).waiters ++ [⟨w.registrations.length, token, state⟩] }
      else w.slots.at k) :
    Inv key { w with
      slots := slots
      registered := Function.update w.registered state true
      registrations := w.registrations ++ [⟨state, token, w.sets.length, w.cancels.length⟩] } := by
  have hengaged : ∀ k, Engaged w.slots k → Engaged slots k := fun k h => by
    unfold Engaged at h ⊢
    rw [hslots]
    split <;> exact h
  have hold : ∀ n r, w.registrations[n]? = some r →
      (w.registrations ++ [⟨state, token, w.sets.length, w.cancels.length⟩])[n]? = some r :=
    fun n r h => by rw [List.getElem?_append_left (List.getElem?_eq_some_iff.mp h).1, h]
  have hcases : ∀ n r,
      (w.registrations ++ [⟨state, token, w.sets.length, w.cancels.length⟩])[n]? = some r →
      (n < w.registrations.length ∧ w.registrations[n]? = some r) ∨
        (n = w.registrations.length ∧ r = ⟨state, token, w.sets.length, w.cancels.length⟩) := by
    intro n r h
    rw [List.getElem?_append] at h
    split at h
    · exact .inl ⟨‹_›, h⟩
    · have hn : n = w.registrations.length := by
        have := (List.getElem?_eq_some_iff.mp h).1
        simp only [List.length_singleton] at this
        omega
      subst hn
      exact .inr ⟨rfl, by simpa using h.symm⟩
  have huses : ∀ n r, World.uses key { w with
      slots := slots
      registered := Function.update w.registered state true
      registrations := w.registrations ++ [⟨state, token, w.sets.length, w.cancels.length⟩] } n r =
      w.uses key n r + if n = w.registrations.length ∧ key r.state = key state then 1 else 0 := by
    intro n r
    simp only [World.uses, hslots]
    by_cases hkey : key r.state = key state
    · simp only [hkey, if_true, List.countP_append, List.countP_singleton, beq_iff_eq, and_true,
        eq_comm (a := n)]
      omega
    · simp [hkey]
  have hfresh := hw.located.fresh_uses
  obtain ⟨hp, hl, hc⟩ := hw
  refine ⟨⟨fun k hk => ?_, fun other k h => ?_, hp.resumable, fun post h => ?_⟩,
    ⟨fun r hr => ?_, fun k waiter h => ?_, fun post h => ?_, fun n j h => ?_⟩,
    ⟨fun n r hr => ?_, fun n r hr hlive => ?_⟩⟩
  · by_cases hks : k = key state
    · rw [hslots, if_pos hks] at hk
      subst hks
      simp [hready] at hk
    · rw [hslots, if_neg hks] at hk ⊢
      exact ⟨(hp.ready k hk).1, hengaged k (hp.ready k hk).2⟩
  · exact ⟨(hp.value other k h).1, hengaged k (hp.value other k h).2⟩
  · exact ⟨(hp.posting post h).1, hengaged _ (hp.posting post h).2⟩
  · rcases List.mem_append.mp hr with hr | hr
    · exact hl.before r hr
    · rw [List.mem_singleton.mp hr]
      exact ⟨Nat.le_refl _, Nat.le_refl _⟩
  · by_cases hks : k = key state
    · rw [hslots, if_pos hks] at h
      rcases List.mem_append.mp h with h | h
      · obtain ⟨hkey, r, hr, hq, hset⟩ := hl.waiting k waiter h
        exact ⟨hkey, r, hold _ _ hr, hq, hset⟩
      · rw [List.mem_singleton.mp h]
        refine ⟨hks.symm, _, List.getElem?_concat_length, ⟨rfl, rfl⟩, fun i hi => ?_⟩
        rw [List.getElem?_eq_none hi]
        simp
    · rw [hslots, if_neg hks] at h
      obtain ⟨hkey, r, hr, hq, hset⟩ := hl.waiting k waiter h
      exact ⟨hkey, r, hold _ _ hr, hq, hset⟩
  · obtain ⟨r, hr, hq, hset⟩ := hl.posting post h
    exact ⟨r, hold _ _ hr, hq, hset⟩
  · obtain ⟨r, hr, hset⟩ := hl.posted n j h
    exact ⟨r, hold _ _ hr, hset⟩
  · rcases hcases n r hr with ⟨hlt, hr⟩ | ⟨rfl, rfl⟩
    · rw [huses, if_neg (by omega)]
      exact hc.once n r hr
    · rw [huses, hfresh]
      split <;> omega
  · rcases hcases n r hr with ⟨hlt, hr⟩ | ⟨rfl, rfl⟩
    · rw [huses]
      exact Nat.lt_of_lt_of_le (hc.kept n r hr hlive) (Nat.le_add_right _ _)
    · rw [huses, if_pos ⟨rfl, rfl⟩]
      exact Nat.succ_pos _

theorem Inv.cancel (hw : Inv key w) (state : Nat) :
    Inv key { w with
      slots := cancelWait w.expired (key state) state w.slots
      registered := Function.update w.registered state false
      cancels := w.cancels ++ [state] } := by
  have hslots := cancelWait_at w.expired w.slots (key state) state
  have hengaged : ∀ k, Engaged w.slots k → Engaged (cancelWait w.expired (key state) state w.slots) k := fun k h => by
    unfold Engaged at h ⊢
    rw [hslots]
    split <;> exact h
  have hsub : ∀ k, ((cancelWait w.expired (key state) state w.slots).at k).waiters.Sublist (w.slots.at k).waiters := fun k => by
    rw [hslots]
    split
    · exact List.filter_sublist
    · exact List.Sublist.refl _
  obtain ⟨hp, hl, hc⟩ := hw
  refine ⟨⟨fun k hk => ?_, fun other k h => ?_, hp.resumable, fun post h => ?_⟩,
    ⟨fun r hr => ?_, fun k waiter h => ?_, hl.posting, hl.posted⟩,
    ⟨fun n r hr => ?_, fun n r hr hlive => ?_⟩⟩
  · have hk' : (w.slots.at k).ready = true := by
      rw [hslots] at hk
      split at hk <;> exact hk
    obtain ⟨hnil, hval⟩ := hp.ready k hk'
    exact ⟨List.sublist_nil.mp (hnil ▸ hsub k), hengaged k hval⟩
  · exact ⟨(hp.value other k h).1, hengaged k (hp.value other k h).2⟩
  · exact ⟨(hp.posting post h).1, hengaged _ (hp.posting post h).2⟩
  · have := hl.before r hr
    simp only [List.length_append, List.length_singleton]
    omega
  · exact hl.waiting k waiter ((hsub k).subset h)
  · have honce := hc.once n r hr
    have hle := (hsub (key r.state)).countP_le (p := fun waiter => waiter.id == n)
    simp only [World.uses] at honce ⊢
    omega
  · -- a registration still live was not one of those erased
    obtain ⟨htoken, halive, hcancels⟩ := hlive
    rw [List.drop_append_of_le_length (hl.before r (List.mem_of_getElem? hr)).2,
      List.mem_append, not_or, List.mem_singleton] at hcancels
    have hkept := hc.kept n r hr ⟨htoken, halive, hcancels.1⟩
    have hcount : ((cancelWait w.expired (key state) state w.slots).at (key r.state)).waiters.countP
        (fun waiter => waiter.id == n) =
        (w.slots.at (key r.state)).waiters.countP (fun waiter => waiter.id == n) := by
      rw [hslots]
      split
      · rw [List.countP_filter]
        refine List.countP_congr fun waiter hmem => ?_
        obtain ⟨-, r', hr', hq, -⟩ := hl.waiting _ waiter hmem
        simp only [Bool.and_eq_true, beq_iff_eq, and_iff_left_iff_imp]
        rintro rfl
        obtain rfl : r = r' := Option.some.inj (hr.symm.trans hr')
        simp [← hq.1, halive, hcancels.2]
      · rfl
    simp only [World.uses, hcount] at hkept ⊢
    exact hkept

theorem Inv.set (hw : Inv key w) (k : String) (payload : α) :
    Inv key (w.set k (setLocked k payload)) := by
  obtain ⟨hwaiters, hptr, hslots⟩ := setLocked_spec k payload w.slots
  have hengaged : ∀ k', Engaged w.slots k' → Engaged (setLocked k payload w.slots).2.2 k' := fun k' h => by
    unfold Engaged at h ⊢
    rw [hslots]
    split
    · rfl
    · exact h
  have huses : ∀ n r, w.registrations[n]? = some r →
      World.uses key (w.set k (setLocked k payload)) n r = w.uses key n r := by
    intro n r hr
    simp only [World.uses, World.set, hslots, hwaiters, List.countP_append, List.countP_map]
    simp only [Function.comp_def]
    split
    · rename_i hk
      subst hk
      simp only [List.countP_nil]
      omega
    · -- the waiters of another key are of other registrations
      have hother : (w.slots.at k).waiters.countP (fun waiter => waiter.id == n) = 0 := by
        rw [List.countP_eq_zero]
        intro waiter hmem heq
        obtain ⟨hkey, r', hr', hq, -⟩ := hw.located.waiting k waiter hmem
        rw [beq_iff_eq.mp heq, hr, Option.some.injEq] at hr'
        rw [← hr'] at hq
        rw [← hq.1] at hkey
        contradiction
      omega
  obtain ⟨hp, hl, hc⟩ := hw
  refine ⟨⟨fun k' hk => ?_, fun other k' h => ?_, hp.resumable, fun post h => ?_⟩,
    ⟨fun r hr => ?_, fun k' waiter h => ?_, fun post h => ?_, fun n j h => ?_⟩,
    ⟨fun n r hr => ?_, fun n r hr hlive => ?_⟩⟩
  · simp only [World.set, hslots] at hk ⊢
    split
    · exact ⟨rfl, by simp [Engaged, *]⟩
    · rw [if_neg ‹_›] at hk
      exact ⟨(hp.ready k' hk).1, hengaged k' (hp.ready k' hk).2⟩
  · exact ⟨(hp.value other k' h).1, hengaged k' (hp.value other k' h).2⟩
  · simp only [World.set, hwaiters, hptr, List.mem_append, List.mem_map] at h
    rcases h with h | ⟨waiter, hmem, rfl⟩
    · exact ⟨(hp.posting post h).1, hengaged _ (hp.posting post h).2⟩
    · obtain rfl := (hl.waiting k waiter hmem).1
      exact ⟨rfl, by simp [Engaged, World.set, hslots]⟩
  · have hbefore := hl.before r hr
    simp only [World.set, List.length_append, List.length_singleton]
    omega
  · simp only [World.set, hslots] at h ⊢
    split at h
    · cases h
    · obtain ⟨hkey, r, hr, hq, hset⟩ := hl.waiting k' waiter h
      exact ⟨hkey, r, hr, hq, hset.append (Ne.symm ‹_›)⟩
  · simp only [World.set, hwaiters, hptr, List.mem_append, List.mem_map] at h
    rcases h with h | ⟨waiter, hmem, rfl⟩
    · obtain ⟨r, hr, hq, hset⟩ := hl.posting post h
      exact ⟨r, hr, hq, hset.append k⟩
    · obtain ⟨rfl, r, hr, hq, hset⟩ := hl.waiting k waiter hmem
      refine ⟨r, hr, hq, ?_⟩
      rw [← hq.1] at hset ⊢
      exact hset.firstSet (hl.before r (List.mem_of_getElem? hr)).1
  · obtain ⟨r, hr, hset⟩ := hl.posted n j h
    exact ⟨r, hr, hset.append k⟩
  · rw [huses n r hr]
    exact hc.once n r hr
  · rw [huses n r hr]
    exact hc.kept n r hr hlive

theorem World.post_value {post : Post} (h : (w.post i post).value state = some k) :
    w.value state = some k ∨ (state = post.waiter.state ∧ post.payload = some k) := by
  simp only [World.post] at h
  split at h
  · by_cases hs : state = post.waiter.state
    · subst hs
      exact .inr ⟨rfl, by simpa using h⟩
    · exact .inl (by simpa [hs] using h)
  · exact .inl h

theorem World.post_resumable {post : Post} (hptr : post.payload = some k)
    (hres : ∀ state ∈ w.resumable, (w.value state).isSome = true)
    (h : state ∈ (w.post i post).resumable) : ((w.post i post).value state).isSome = true := by
  simp only [World.post] at h ⊢
  by_cases halive : post.waiter.state ∈ w.expired
  · simp [halive] at h ⊢
    exact hres state h
  · by_cases hs : state = post.waiter.state
    · simp [halive, hs, hptr]
    · simp only [halive, List.contains_eq_mem, decide_false, Bool.not_false, Bool.true_and, ↓reduceIte,
        Function.update_of_ne hs] at h ⊢
      split at h
      · exact hres state (by simpa [hs] using h)
      · exact hres state h

theorem World.mem_post_posted {post : Post} (h : p ∈ (w.post i post).posted) :
    p ∈ w.posted ∨ p = (post.waiter.id, post.set) := by
  simp only [World.post] at h
  split at h
  · simpa using h
  · exact .inl h

theorem World.post_uses {post : Post} (hpost : w.posting[i]? = some post) (n : Nat) (r : Registration) :
    (w.post i post).uses key n r ≤ w.uses key n r ∧
      (post.waiter.id = n → post.waiter.token.isSome → post.waiter.state ∉ w.expired →
        (w.post i post).uses key n r = w.uses key n r) ∧
      (post.waiter.id ≠ n → (w.post i post).uses key n r = w.uses key n r) := by
  have hperm : w.posting.Perm (post :: w.posting.eraseIdx i) := by
    obtain ⟨hlt, rfl⟩ := List.getElem?_eq_some_iff.mp hpost
    exact (List.getElem_cons_eraseIdx_perm hlt).symm
  have hcount := hperm.countP_eq (fun post => post.waiter.id == n)
  simp only [List.countP_cons, beq_iff_eq] at hcount
  simp only [World.post, World.uses]
  by_cases halive : post.waiter.state ∈ w.expired
  · simp only [halive, List.contains_eq_mem, decide_true, Bool.not_true, Bool.false_and,
      Bool.false_eq_true, ↓reduceIte]
    grind
  · simp only [halive, List.contains_eq_mem, decide_false, Bool.not_false, Bool.true_and]
    split
    · simp only [List.countP_append, List.countP_singleton, beq_iff_eq]
      grind
    · grind

theorem Inv.post {post : Post} (hw : Inv key w) (hpost : w.posting[i]? = some post) :
    Inv key (w.post i post) := by
  have hmem : post ∈ w.posting := List.mem_of_getElem? hpost
  have hsub : ∀ other ∈ w.posting.eraseIdx i, other ∈ w.posting := fun _ h => List.mem_of_mem_eraseIdx h
  obtain ⟨hp, hl, hc⟩ := hw
  obtain ⟨hptr, hengaged⟩ := hp.posting post hmem
  obtain ⟨r₀, hr₀, hq, hset⟩ := hl.posting post hmem
  refine ⟨⟨?_, fun state k h => ?_, fun state h => ?_, fun other h => ?_⟩,
    ⟨?_, ?_, fun other h => ?_, fun n j h => ?_⟩, ⟨fun n r hr => ?_, fun n r hr hlive => ?_⟩⟩
  · exact hp.ready
  · rcases World.post_value h with hold | ⟨rfl, hnew⟩
    · exact hp.value state k hold
    · obtain rfl : key post.waiter.state = k := Option.some.inj (hptr.symm.trans hnew)
      exact ⟨rfl, hengaged⟩
  · exact World.post_resumable hptr hp.resumable h
  · exact hp.posting other (hsub other h)
  · exact hl.before
  · exact hl.waiting
  · exact hl.posting other (hsub other h)
  · rcases World.mem_post_posted h with h | h
    · exact hl.posted n j h
    · cases h
      exact ⟨r₀, hr₀, hset⟩
  · exact Nat.le_trans (World.post_uses hpost n r).1 (hc.once n r hr)
  · have hkept := hc.kept n r hr hlive
    by_cases hn : post.waiter.id = n
    · rw [hn] at hr₀
      obtain rfl : r = r₀ := Option.some.inj (hr.symm.trans hr₀)
      rw [(World.post_uses hpost n r).2.1 hn (hq.2 ▸ hlive.1) (hq.1 ▸ hlive.2.1)]
      exact hkept
    · rw [(World.post_uses hpost n r).2.2 hn]
      exact hkept

theorem Inv.step [Inhabited α] {w' : World α} (hw : Inv key w) (h : w.step key a = some w') :
    Inv key w' := by
  cases a with
  | setDefault k => cases h; exact hw.set k default
  | setValue k value => cases h; exact hw.set k value
  | reset k =>
    cases h
    refine hw.unready fun k' => ?_
    rw [reset_at]
    split <;> simp
  | resetAll =>
    cases h
    refine hw.unready fun k' => ?_
    rw [resetAll_at]
    simp
  | awaitReady state =>
    simp only [World.step] at h
    split at h
    · cases h
    split at h
    · cases h; exact hw
    · rename_i value hvalue
      cases h
      obtain ⟨hready, rfl⟩ := awaitReady_eq_some hvalue
      exact hw.found hready
  | awaitSuspendWithToken state token =>
    simp only [World.step] at h
    split at h
    · cases h
    rcases awaitSuspendWithToken_cases (key state) ⟨w.registrations.length, token, state⟩ w.slots with
      ⟨hready, slots, hslots, he⟩ | ⟨hready, slots, hslots, he⟩
    · rw [he] at h
      cases h
      exact (hw.found hready).unready fun k => by simp [hslots k]
    · rw [he] at h
      cases h
      exact hw.queue hready hslots
  | cancelWait state =>
    simp only [World.step] at h
    split at h
    · cases h
    split at h
    · cases h; exact hw
    · cases h; exact hw.cancel state
  | expire state =>
    cases h
    obtain ⟨hp, hl, hc⟩ := hw
    refine ⟨⟨hp.ready, hp.value, hp.resumable, hp.posting⟩,
      ⟨hl.before, hl.waiting, hl.posting, hl.posted⟩, ⟨hc.once, fun n r hr hlive => ?_⟩⟩
    exact hc.kept n r hr ⟨hlive.1, fun hmem => hlive.2.1 (List.mem_cons_of_mem _ hmem), hlive.2.2⟩
  | postNext i =>
    simp only [World.step] at h
    split at h
    · cases h
    split at h
    · cases h
    · cases h; exact hw.post ‹_›

theorem Inv.reachable [Inhabited α] (h : run (World.step key) ({} : World α) steps = some w) :
    Inv key w :=
  run_invariant (fun _ _ _ => Inv.step) Inv.init h

-- ---------------------------------------------------------------------------
-- No lost and no spurious wakeup
-- ---------------------------------------------------------------------------

theorem Inv.posted_by_first_set (hw : Inv key w) (hr : w.registrations[n]? = some r)
    (hposted : (n, j) ∈ w.posted) : IsFirstSet w.sets (key r.state) r.setsBefore j := by
  obtain ⟨r', hr', hset⟩ := hw.located.posted n j hposted
  rw [hr, Option.some.injEq] at hr'
  rw [hr']
  exact hset

theorem Inv.posted_le_one (hw : Inv key w) (hr : w.registrations[n]? = some r) :
    w.posted.countP (fun p => p.1 == n) ≤ 1 := by
  have honce := hw.counted.once n r hr
  unfold World.uses at honce
  omega

/-- A live registration is posted by the time the first set on its key since
has returned. -/
theorem Inv.posted_of_live (hw : Inv key w) (hr : w.registrations[n]? = some r) (hlive : r.live w)
    (hset : IsFirstSet w.sets (key r.state) r.setsBefore j) (hdone : ∀ post ∈ w.posting, post.set ≠ j) :
    (n, j) ∈ w.posted := by
  have hkept := hw.counted.kept n r hr hlive
  have hslot : (w.slots.at (key r.state)).waiters.countP (fun waiter => waiter.id == n) = 0 := by
    rw [List.countP_eq_zero]
    intro waiter hmem heq
    obtain ⟨-, r', hr', -, hnone⟩ := hw.located.waiting _ waiter hmem
    rw [beq_iff_eq.mp heq, hr, Option.some.injEq] at hr'
    rw [← hr'] at hnone
    exact hnone.not_firstSet hset
  have hposting : w.posting.countP (fun post => post.waiter.id == n) = 0 := by
    rw [List.countP_eq_zero]
    intro post hmem heq
    obtain ⟨r', hr', -, hfirst⟩ := hw.located.posting post hmem
    rw [beq_iff_eq.mp heq, hr, Option.some.injEq] at hr'
    rw [← hr'] at hfirst
    exact hdone post hmem (hfirst.unique hset)
  have hposted : 0 < w.posted.countP (fun p => p.1 == n) := by
    unfold World.uses at hkept
    omega
  obtain ⟨⟨n', j'⟩, hmem, heq⟩ := List.countP_pos_iff.mp hposted
  obtain rfl : n' = n := beq_iff_eq.mp heq
  obtain rfl := (hw.posted_by_first_set hr hmem).unique hset
  exact hmem

/-- In every world an interleaving reaches: a ready slot has no waiters and a
payload; a registration is posted at most once, only by the first set on its
key since, and is posted when that set returned unless it was cancelled; and
what was posted or found ready resumes with the payload of its own key. -/
theorem event_wakeups [Inhabited α] (key : Nat → String)
    (h : run (World.step key) ({} : World α) steps = some w) :
    (∀ k slot, w.slots k = some slot → slot.ready = true →
      slot.waiters = [] ∧ slot.value.isSome = true) ∧
    (∀ n r, w.registrations[n]? = some r →
      (∀ j, (n, j) ∈ w.posted → IsFirstSet w.sets (key r.state) r.setsBefore j) ∧
      w.posted.countP (fun p => p.1 == n) ≤ 1 ∧
      (r.live w → ∀ j, IsFirstSet w.sets (key r.state) r.setsBefore j →
        (∀ post ∈ w.posting, post.set ≠ j) → (n, j) ∈ w.posted)) ∧
    (∀ state ∈ w.resumable, awaitResume (w.value state) = .ok (key state) ∧
      ∃ slot, w.slots (key state) = some slot ∧ slot.value.isSome = true) := by
  have hw := Inv.reachable h
  refine ⟨fun k slot hk hready => ?_, fun n r hr => ⟨fun j => hw.posted_by_first_set hr,
    hw.posted_le_one hr, fun hlive j => hw.posted_of_live hr hlive⟩, fun state hmem => ?_⟩
  · have hat : w.slots.at k = slot := by simp [Slots.at, hk]
    have hok := hw.payloads.ready k (by rw [hat]; exact hready)
    rw [Engaged, hat] at hok
    exact hok
  · obtain ⟨k, hk⟩ := Option.isSome_iff_exists.mp (hw.payloads.resumable state hmem)
    obtain ⟨rfl, hengaged⟩ := hw.payloads.value state k hk
    refine ⟨by rw [hk]; rfl, ?_⟩
    cases hslot : w.slots (key state) with
    | none => simp [Engaged, Slots.at, hslot] at hengaged
    | some slot => exact ⟨slot, rfl, by simpa [Engaged, Slots.at, hslot] using hengaged⟩

/-- Two awaitables wait on `ready` and one on `other`; the set on `ready` wakes
the first two. -/
theorem event_wakeups_two_keys :
    ∃ w, run (World.step fun n => if n = 2 then "other" else "ready") ({} : World Nat)
        [.awaitSuspendWithToken 0 (some 0), .awaitSuspendWithToken 2 (some 2),
          .awaitSuspendWithToken 1 (some 1), .setValue "ready" 5, .postNext 0, .postNext 0] = some w ∧
      w.posted = [(0, 0), (2, 0)] ∧ awaitResume (w.value 1) = .ok "ready" := by
  have hreach : ∃ w, run (World.step fun n => if n = 2 then "other" else "ready") ({} : World Nat)
      [.awaitSuspendWithToken 0 (some 0), .awaitSuspendWithToken 2 (some 2),
        .awaitSuspendWithToken 1 (some 1), .setValue "ready" 5, .postNext 0, .postNext 0] = some w ∧
      w.posted = [(0, 0), (2, 0)] ∧ 1 ∈ w.resumable := ⟨_, rfl, by decide, by decide⟩
  obtain ⟨w, hrun, hposted, hmem⟩ := hreach
  obtain ⟨-, -, hresume⟩ := event_wakeups _ hrun
  exact ⟨w, hrun, hposted, (hresume 1 hmem).1⟩

end

end Gentest.Async.Event
