import Gentest.Lib.Interleaving
import Mathlib.Data.List.Perm.Basic
import Mathlib.Logic.Function.Basic

/-!
# Arbitration of a timed wait

`timeout_awaitable::await_suspend` makes two waiter tokens for one frame. The
hook of each decides by a compare-exchange on `timed_wait_state` whether its
post goes on, and the winner cancels the other token. The model takes the steps
of `WaiterToken::post` apart: the exchange, the section that takes the token's
fields, the hook with its own steps, the check of the frame and the post.

`outside` records that a token or the frame was cancelled by anything but the
wait itself.
-/

namespace Gentest.Async.TimedWait

open Interleaving (run run_invariant run_rel countP_move mem_of_mem_move)

inductive Side
  | ready
  | timeout
  deriving DecidableEq, Repr

def Side.other : Side → Side
  | .ready => .timeout
  | .timeout => .ready

/-- `timed_wait_state::winner`, with `none` for its `none`. -/
abbrev Winner := Side

/-- `AsyncScheduler::WaiterToken`: `linked` says that control and frame are set. -/
structure WaiterToken where
  active : Bool := true
  beforePost : Bool := false
  linked : Bool := true
  deriving DecidableEq, Repr

/-- Where `await_suspend` is: the tokens are made, each hook is set, the timer
has one token and the inner awaitable the other. -/
inductive Setup
  | made
  | readyHooked
  | bothHooked
  | timerScheduled
  | suspended
  deriving DecidableEq, Repr

def Setup.next : Setup → Option Setup
  | .made => some .readyHooked
  | .readyHooked => some .bothHooked
  | .bothHooked => some .timerScheduled
  | .timerScheduled => some .suspended
  | .suspended => none

def Setup.shares : Setup → Side → Bool
  | .suspended, _ => true
  | .timerScheduled, .timeout => true
  | _, _ => false

/-- Where a call of `post` is after its exchange. `linked` says that it found
control and frame. -/
inductive Pc
  | exchanged
  | taken (hook linked : Bool)
  | won (linked : Bool)
  | cancelling (linked : Bool)
  | hooked (linked : Bool)
  | posting
  | done
  deriving DecidableEq, Repr

structure Poster where
  side : Side
  pc : Pc
  deriving DecidableEq, Repr

structure World where
  setup : Setup := .made
  token : Side → WaiterToken := fun _ => {}
  selected : Option Winner := none
  frameCanceled : Bool := false
  frameGone : Bool := false
  posters : List Poster := []
  /-- Calls of `cancel` between the exchange and the section that clears. -/
  clearing : List Side := []
  /-- The posts of the frame the scheduler received. -/
  received : Nat := 0
  /-- The compare-exchanges that succeeded, latest last. -/
  wins : List Winner := []
  /-- Some post found its token active. -/
  started : Bool := false
  outside : Bool := false
  /-- What `await_resume` returned: the side whose result it is. -/
  resumed : Option Side := none

inductive Step
  | setup
  | post (side : Side)
  /-- The `i`-th call of `post` goes on; `late` is what the ready hook finds
  when it compares the clock with the deadline. -/
  | advance (i : Nat) (late : Bool)
  | cancel (side : Side)
  | clear (i : Nat)
  | cancelFrame
  | dropFrame
  | resume
  /-- `cancel_tokens` of the resumed wait. -/
  | cancelToken (side : Side)
  deriving DecidableEq, Repr

def World.setToken (w : World) (side : Side) (token : WaiterToken) : World :=
  { w with token := Function.update w.token side token }

def World.movePoster (w : World) (i : Nat) (side : Side) (pc : Pc) : World :=
  { w with posters := w.posters.set i ⟨side, pc⟩ }

/-- `active_.exchange(false)`. -/
def WaiterToken.deactivate (t : WaiterToken) : WaiterToken := { t with active := false }

/-- What the locked sections of `post` and `cancel` leave. -/
def WaiterToken.clear (t : WaiterToken) : WaiterToken := { t with beforePost := false, linked := false }

/-- The locked section of `set_before_post`. -/
def WaiterToken.setBeforePost (t : WaiterToken) : WaiterToken :=
  if t.active then { t with beforePost := true } else t

def Side.claims (side : Side) (late : Bool) : Winner :=
  match side with
  | .timeout => .timeout
  | .ready => if late then .timeout else .ready

def World.advance (w : World) (i : Nat) (late : Bool) (side : Side) : Pc → Option World
  | .exchanged =>
    let t := w.token side
    some ((w.setToken side t.clear).movePoster i side (.taken t.beforePost (t.linked && !w.frameGone)))
  | .taken true linked =>
    match w.selected with
    | some _ => some (w.movePoster i side .done)
    | none => some { w.movePoster i side (.won linked) with
        selected := some (side.claims late)
        wins := w.wins ++ [side.claims late] }
  | .taken false linked => some (w.movePoster i side (.hooked linked))
  | .won linked =>
    let t := w.token side.other
    if t.active then
      some ((w.setToken side.other t.deactivate).movePoster i side (.cancelling linked))
    else some (w.movePoster i side (.hooked linked))
  | .cancelling linked =>
    some ((w.setToken side.other (w.token side.other).clear).movePoster i side (.hooked linked))
  | .hooked linked =>
    if linked && !w.frameCanceled then some (w.movePoster i side .posting)
    else some (w.movePoster i side .done)
  | .posting => some { w.movePoster i side .done with received := w.received + 1 }
  | .done => none

def World.cancel (w : World) (side : Side) : World :=
  if (w.token side).active then
    { w.setToken side (w.token side).deactivate with clearing := w.clearing ++ [side] }
  else w

def World.step (w : World) : Step → Option World
  | .setup =>
    match w.setup.next with
    | none => none
    | some .readyHooked =>
      some { w.setToken .ready (w.token .ready).setBeforePost with setup := .readyHooked }
    | some .bothHooked =>
      some { w.setToken .timeout (w.token .timeout).setBeforePost with setup := .bothHooked }
    | some setup => some { w with setup := setup }
  | .post side =>
    if !w.setup.shares side then none
    else if (w.token side).active then
      some { w.setToken side (w.token side).deactivate with
        posters := w.posters ++ [⟨side, .exchanged⟩]
        started := true }
    else some { w with posters := w.posters ++ [⟨side, .done⟩] }
  | .advance i late =>
    match w.posters[i]? with
    | none => none
    | some ⟨side, pc⟩ => w.advance i late side pc
  | .cancel side => some { w.cancel side with outside := true }
  | .clear i =>
    match w.clearing[i]? with
    | none => none
    | some side => some { w.setToken side (w.token side).clear with clearing := w.clearing.eraseIdx i }
  | .cancelFrame => some { w with frameCanceled := true, outside := true }
  | .dropFrame => some { w with frameGone := true, outside := true }
  | .resume =>
    if w.setup = .suspended ∧ w.received = 1 ∧ w.resumed = none ∧ w.frameCanceled = false then
      some { w with resumed := some (if w.selected = some .timeout then .timeout else .ready) }
    else none
  | .cancelToken side => if w.resumed.isSome then some (w.cancel side) else none

-- ---------------------------------------------------------------------------
-- One holder of each token
-- ---------------------------------------------------------------------------

@[simp] theorem Side.other_ne (side : Side) : side.other ≠ side := by cases side <;> decide

/-- The poster won the exchange of the token and has not cleared it yet. -/
def Poster.holds (side : Side) (p : Poster) : Bool :=
  match p.pc with
  | .exchanged => p.side == side
  | .cancelling _ => p.side.other == side
  | _ => false

/-- The right to clear the token: the token itself while it is active, then the
one thread that won its exchange, then nobody. -/
def World.holders (w : World) (side : Side) : Nat :=
  (w.token side).active.toNat + w.posters.countP (Poster.holds side) + w.clearing.count side

def Setup.hooks : Setup → Side → Bool
  | .made, _ => false
  | .readyHooked, side => side == .ready
  | _, _ => true

theorem Setup.hooks_of_shares {setup : Setup} (h : setup.shares side = true) : setup.hooks side = true := by
  cases setup <;> cases side <;> simp_all [Setup.shares, Setup.hooks]

/-- A token nobody cleared still has its frame and, once set, its hook. -/
structure Held (w : World) : Prop where
  exclusive : ∀ side, w.holders side ≤ 1
  active : ∀ side, (w.token side).active = true →
    (w.token side).linked = true ∧ (w.setup.hooks side = true → (w.token side).beforePost = true)
  exchanged : ∀ p ∈ w.posters, p.pc = .exchanged →
    (w.token p.side).linked = true ∧ (w.token p.side).beforePost = true
  taken : ∀ p ∈ w.posters, ∀ hook linked, p.pc = .taken hook linked → hook = true

theorem Held.init : Held {} := by
  constructor <;> simp [World.holders, Setup.hooks]

theorem Held.of_holders_zero {w : World} (h : w.holders side = 0) :
    (w.token side).active = false ∧ ∀ p ∈ w.posters, p.pc = .exchanged → p.side ≠ side := by
  unfold World.holders at h
  refine ⟨?_, fun p hmem hpc hside => ?_⟩
  · cases ha : (w.token side).active
    · rfl
    · simp [ha] at h
  · have hnone : w.posters.countP (Poster.holds side) = 0 := by omega
    rw [List.countP_eq_zero] at hnone
    exact hnone p hmem (by simp [Poster.holds, hpc, hside])

theorem Held.clear {w : World} (hw : Held w) (hzero : w.holders side = 0) :
    Held (w.setToken side (w.token side).clear) := by
  obtain ⟨hactive, hposters⟩ := Held.of_holders_zero hzero
  have hother : ∀ side', side' ≠ side →
      (w.setToken side (w.token side).clear).token side' = w.token side' := fun side' hne => by
    simp [World.setToken, hne]
  refine ⟨fun side' => ?_, fun side' h => ?_, fun p hmem hpc => ?_, hw.taken⟩
  · by_cases hs : side' = side
    · subst hs
      have hle := hw.exclusive side'
      simpa [World.holders, World.setToken, WaiterToken.clear] using hle
    · simpa [World.holders, World.setToken, hs] using hw.exclusive side'
  · by_cases hs : side' = side
    · subst hs
      simp [World.setToken, WaiterToken.clear, hactive] at h
    · rw [hother side' hs] at h ⊢
      exact hw.active side' h
  · rw [hother p.side (hposters p hmem hpc)]
    exact hw.exchanged p hmem hpc

theorem Held.move {w : World} (hw : Held w) {p : Poster} (hp : w.posters[i]? = some p)
    (hholds : ∀ side, Poster.holds side ⟨p.side, pc⟩ = true → Poster.holds side p = true)
    (hpc : pc ≠ .exchanged) (htaken : ∀ hook linked, pc = .taken hook linked → hook = true) :
    Held (w.movePoster i p.side pc) := by
  refine ⟨fun side => ?_, hw.active, fun q hmem hq => ?_, fun q hmem hook linked hq => ?_⟩
  · have hmove := countP_move (Poster.holds side) hp ⟨p.side, pc⟩
    have hle := hw.exclusive side
    have hside := hholds side
    simp only [World.holders, World.movePoster] at hle ⊢
    by_cases hnew : Poster.holds side ⟨p.side, pc⟩ = true
    · simp only [hnew, hside hnew, if_true] at hmove
      omega
    · simp only [hnew, Bool.false_eq_true, if_false] at hmove
      split at hmove <;> omega
  · rcases mem_of_mem_move hmem with rfl | hmem
    · exact absurd hq hpc
    · exact hw.exchanged q hmem hq
  · rcases mem_of_mem_move hmem with rfl | hmem
    · exact htaken hook linked hq
    · exact hw.taken q hmem hook linked hq

theorem World.holders_movePoster {w : World} {p : Poster} (hp : w.posters[i]? = some p) (side : Side)
    (pc : Pc) :
    (w.movePoster i p.side pc).holders side + (if Poster.holds side p then 1 else 0) =
      w.holders side + (if Poster.holds side ⟨p.side, pc⟩ then 1 else 0) := by
  have hmove := countP_move (Poster.holds side) hp ⟨p.side, pc⟩
  simp only [World.holders, World.movePoster]
  omega

theorem Held.exchanged_step {w : World} (hw : Held w)
    (hp : w.posters[i]? = some ⟨side, .exchanged⟩) (linked : Bool) :
    Held ((w.setToken side (w.token side).clear).movePoster i side
      (.taken (w.token side).beforePost linked)) := by
  have hbefore := (hw.exchanged _ (List.mem_of_getElem? hp) rfl).2
  have hmoved : Held (w.movePoster i side (.taken (w.token side).beforePost linked)) :=
    hw.move hp (fun _ h => absurd h (by simp [Poster.holds])) (by simp) (by simpa using hbefore)
  refine hmoved.clear ?_
  have hholders := World.holders_movePoster hp side (.taken (w.token side).beforePost linked)
  have hle := hw.exclusive side
  simp only [Poster.holds, beq_self_eq_true, if_true, Bool.false_eq_true, if_false] at hholders
  omega

theorem Held.cancelling_step {w : World} (hw : Held w)
    (hp : w.posters[i]? = some ⟨side, .cancelling linked⟩) :
    Held ((w.setToken side.other (w.token side.other).clear).movePoster i side (.hooked linked)) := by
  have hmoved : Held (w.movePoster i side (.hooked linked)) :=
    hw.move hp (fun _ h => absurd h (by simp [Poster.holds])) (by simp) (by simp)
  refine hmoved.clear ?_
  have hholders := World.holders_movePoster hp side.other (.hooked linked)
  have hle := hw.exclusive side.other
  simp only [Poster.holds, beq_self_eq_true, if_true, Bool.false_eq_true, if_false] at hholders
  omega

theorem Held.won_step {w : World} (hw : Held w) (hp : w.posters[i]? = some ⟨side, .won linked⟩)
    (hactive : (w.token side.other).active = true) :
    Held ((w.setToken side.other (w.token side.other).deactivate).movePoster i side
      (.cancelling linked)) := by
  have hlinked := hw.active side.other hactive
  refine ⟨fun side' => ?_, fun side' h => ?_, fun q hmem hq => ?_, fun q hmem hook l hq => ?_⟩
  · have hmove := countP_move (Poster.holds side') hp ⟨side, .cancelling linked⟩
    have hle := hw.exclusive side'
    simp only [World.holders, World.movePoster, World.setToken] at hle ⊢
    by_cases hs : side' = side.other
    · subst hs
      simp only [Poster.holds, beq_self_eq_true, if_true, Bool.false_eq_true, if_false] at hmove
      simp only [Function.update_self, WaiterToken.deactivate, hactive, Bool.toNat_true,
        Bool.toNat_false] at hle ⊢
      omega
    · simp only [Poster.holds, beq_iff_eq, Ne.symm hs, Bool.false_eq_true, if_false] at hmove
      simp only [Function.update_of_ne hs]
      omega
  · by_cases hs : side' = side.other
    · simp [World.movePoster, World.setToken, WaiterToken.deactivate, hs] at h
    · simp only [World.movePoster, World.setToken, Function.update_of_ne hs] at h ⊢
      exact hw.active side' h
  · rcases mem_of_mem_move hmem with rfl | hmem
    · cases hq
    · have hold := hw.exchanged q hmem hq
      by_cases hs : q.side = side.other
      · simpa [World.movePoster, World.setToken, WaiterToken.deactivate, hs] using hold
      · simpa [World.movePoster, World.setToken, hs] using hold
  · rcases mem_of_mem_move hmem with rfl | hmem
    · cases hq
    · exact hw.taken q hmem hook l hq

theorem Held.advance {w w' : World} (hw : Held w) (hp : w.posters[i]? = some ⟨side, pc⟩)
    (h : w.advance i late side pc = some w') : Held w' := by
  have hmoves : ∀ pc', (∀ side', Poster.holds side' ⟨side, pc'⟩ = false) → pc' ≠ .exchanged →
      (∀ hook linked, pc' = .taken hook linked → hook = true) → Held (w.movePoster i side pc') :=
    fun pc' hholds hpc htaken => hw.move hp (fun side' h => by simp [hholds] at h) hpc htaken
  cases pc with
  | exchanged => cases h; exact hw.exchanged_step hp _
  | taken hook linked =>
    obtain rfl := hw.taken _ (List.mem_of_getElem? hp) hook linked rfl
    simp only [World.advance] at h
    split at h
    · cases h
      exact hmoves _ (fun _ => rfl) (by simp) (by simp)
    · cases h
      have hmoved := hmoves (.won linked) (fun _ => rfl) (by simp) (by simp)
      exact ⟨hmoved.exclusive, hmoved.active, hmoved.exchanged, hmoved.taken⟩
  | won linked =>
    simp only [World.advance] at h
    split at h
    · cases h
      exact hw.won_step hp ‹_›
    · cases h
      exact hmoves _ (fun _ => rfl) (by simp) (by simp)
  | cancelling linked => cases h; exact hw.cancelling_step hp
  | hooked linked =>
    simp only [World.advance] at h
    split at h
    · cases h
      exact hmoves _ (fun _ => rfl) (by simp) (by simp)
    · cases h
      exact hmoves _ (fun _ => rfl) (by simp) (by simp)
  | posting =>
    cases h
    have hmoved := hmoves .done (fun _ => rfl) (by simp) (by simp)
    exact ⟨hmoved.exclusive, hmoved.active, hmoved.exchanged, hmoved.taken⟩
  | done => cases h

theorem Held.cancel {w : World} (hw : Held w) (side : Side) : Held (w.cancel side) := by
  unfold World.cancel
  split
  · rename_i hactive
    refine ⟨fun side' => ?_, fun side' h => ?_, fun q hmem hq => ?_, hw.taken⟩
    · have hle := hw.exclusive side'
      simp only [World.holders, World.setToken, List.count_append, List.count_singleton] at hle ⊢
      by_cases hs : side' = side
      · subst hs
        simp [WaiterToken.deactivate, hactive] at hle ⊢
        omega
      · simpa [hs, Ne.symm hs] using hle
    · by_cases hs : side' = side
      · simp [World.setToken, WaiterToken.deactivate, hs] at h
      · simp only [World.setToken, Function.update_of_ne hs] at h ⊢
        exact hw.active side' h
    · have hold := hw.exchanged q hmem hq
      by_cases hs : q.side = side
      · simpa [World.setToken, WaiterToken.deactivate, hs] using hold
      · simpa [World.setToken, hs] using hold
  · exact hw

theorem Held.clear_step {w : World} (hw : Held w) (hi : w.clearing[i]? = some side) :
    Held { w.setToken side (w.token side).clear with clearing := w.clearing.eraseIdx i } := by
  have hcount : ∀ side', w.clearing.count side' =
      (w.clearing.eraseIdx i).count side' + if side = side' then 1 else 0 := fun side' => by
    obtain ⟨hlt, hget⟩ := List.getElem?_eq_some_iff.mp hi
    have hperm := List.getElem_cons_eraseIdx_perm hlt
    rw [hget] at hperm
    rw [← hperm.count_eq, List.count_cons]
    simp
  have hgone : Held { w with clearing := w.clearing.eraseIdx i } := by
    refine ⟨fun side' => ?_, hw.active, hw.exchanged, hw.taken⟩
    have hle := hw.exclusive side'
    simp only [World.holders, hcount side'] at hle ⊢
    omega
  refine hgone.clear ?_
  have hle := hw.exclusive side
  simp only [World.holders, hcount side, if_true] at hle ⊢
  omega

theorem Held.post_step {w : World} (hw : Held w) (hshares : w.setup.shares side = true)
    (hactive : (w.token side).active = true) :
    Held { w.setToken side (w.token side).deactivate with
      posters := w.posters ++ [⟨side, .exchanged⟩], started := true } := by
  obtain ⟨hlinked, hbefore⟩ := hw.active side hactive
  refine ⟨fun side' => ?_, fun side' h => ?_, fun q hmem hq => ?_, fun q hmem hook l hq => ?_⟩
  · have hle := hw.exclusive side'
    simp only [World.holders, World.setToken, List.countP_append, List.countP_singleton] at hle ⊢
    by_cases hs : side' = side
    · subst hs
      simp [WaiterToken.deactivate, Poster.holds, hactive] at hle ⊢
      omega
    · simpa [hs, Poster.holds, Ne.symm hs] using hle
  · by_cases hs : side' = side
    · simp [World.setToken, WaiterToken.deactivate, hs] at h
    · simp only [World.setToken, Function.update_of_ne hs] at h ⊢
      exact hw.active side' h
  · by_cases hs : q.side = side
    · simp [World.setToken, WaiterToken.deactivate, hs, hlinked,
        hbefore (Setup.hooks_of_shares hshares)]
    · rcases List.mem_append.mp hmem with hmem | hmem
      · simpa [World.setToken, hs] using hw.exchanged q hmem hq
      · exact absurd (congrArg Poster.side (List.mem_singleton.mp hmem)) hs
  · rcases List.mem_append.mp hmem with hmem | hmem
    · exact hw.taken q hmem hook l hq
    · rw [List.mem_singleton.mp hmem] at hq
      cases hq

theorem Held.lost_step {w : World} (hw : Held w) (side : Side) :
    Held { w with posters := w.posters ++ [⟨side, .done⟩] } := by
  refine ⟨fun side' => ?_, hw.active, fun q hmem hq => ?_, fun q hmem hook l hq => ?_⟩
  · simpa [World.holders, Poster.holds] using hw.exclusive side'
  · rcases List.mem_append.mp hmem with hmem | hmem
    · exact hw.exchanged q hmem hq
    · rw [List.mem_singleton.mp hmem] at hq
      cases hq
  · rcases List.mem_append.mp hmem with hmem | hmem
    · exact hw.taken q hmem hook l hq
    · rw [List.mem_singleton.mp hmem] at hq
      cases hq

theorem WaiterToken.setBeforePost_active (t : WaiterToken) : t.setBeforePost.active = t.active := by
  unfold WaiterToken.setBeforePost; split <;> rfl

theorem WaiterToken.setBeforePost_linked (t : WaiterToken) : t.setBeforePost.linked = t.linked := by
  unfold WaiterToken.setBeforePost; split <;> rfl

theorem Held.hook {w : World} (hw : Held w) (side : Side) (setup : Setup)
    (hstage : ∀ side', setup.hooks side' = true → side' = side ∨ w.setup.hooks side' = true) :
    Held { w.setToken side (w.token side).setBeforePost with setup := setup } := by
  refine ⟨fun side' => ?_, fun side' h => ?_, fun q hmem hq => ?_, hw.taken⟩
  · have hle := hw.exclusive side'
    by_cases hs : side' = side
    · simpa [World.holders, World.setToken, hs, WaiterToken.setBeforePost_active] using hs ▸ hle
    · simpa [World.holders, World.setToken, hs] using hle
  · by_cases hs : side' = side
    · subst hs
      simp only [World.setToken, Function.update_self, WaiterToken.setBeforePost_active,
        WaiterToken.setBeforePost_linked] at h ⊢
      exact ⟨(hw.active side' h).1, fun _ => by simp [WaiterToken.setBeforePost, h]⟩
    · simp only [World.setToken, Function.update_of_ne hs] at h ⊢
      refine ⟨(hw.active side' h).1, fun hhooks => (hw.active side' h).2 ?_⟩
      exact (hstage side' hhooks).resolve_left hs
  · have hold := hw.exchanged q hmem hq
    by_cases hs : q.side = side
    · simp only [World.setToken, hs, Function.update_self, WaiterToken.setBeforePost_linked]
      rw [← hs]
      refine ⟨hold.1, ?_⟩
      unfold WaiterToken.setBeforePost
      split
      · rfl
      · exact hold.2
    · simpa [World.setToken, hs] using hold

theorem Held.setup_step {w w' : World} (hw : Held w) (h : w.step .setup = some w') : Held w' := by
  simp only [World.step] at h
  cases hsetup : w.setup with
  | made =>
    rw [hsetup] at h
    cases h
    exact hw.hook .ready .readyHooked fun side' h => by cases side' <;> simp_all [Setup.hooks]
  | readyHooked =>
    rw [hsetup] at h
    cases h
    exact hw.hook .timeout .bothHooked fun side' h => by cases side' <;> simp_all [Setup.hooks]
  | bothHooked =>
    rw [hsetup] at h
    cases h
    exact ⟨hw.exclusive, fun side ha => ⟨(hw.active side ha).1, fun _ => (hw.active side ha).2
      (by simp [hsetup, Setup.hooks])⟩, hw.exchanged, hw.taken⟩
  | timerScheduled =>
    rw [hsetup] at h
    cases h
    exact ⟨hw.exclusive, fun side ha => ⟨(hw.active side ha).1, fun _ => (hw.active side ha).2
      (by simp [hsetup, Setup.hooks])⟩, hw.exchanged, hw.taken⟩
  | suspended => rw [hsetup] at h; cases h

theorem Held.step {w w' : World} (hw : Held w) (h : w.step a = some w') : Held w' := by
  cases a with
  | setup => exact hw.setup_step h
  | post side =>
    simp only [World.step] at h
    split at h
    · cases h
    · split at h
      · cases h; exact hw.post_step (by simpa using ‹¬(!w.setup.shares side) = true›) ‹_›
      · cases h; exact hw.lost_step side
  | advance i late =>
    simp only [World.step] at h
    split at h
    · cases h
    · exact hw.advance ‹_› h
  | cancel side =>
    cases h
    have hcancel := hw.cancel side
    exact ⟨hcancel.exclusive, hcancel.active, hcancel.exchanged, hcancel.taken⟩
  | clear i =>
    simp only [World.step] at h
    split at h
    · cases h
    · cases h; exact hw.clear_step ‹_›
  | cancelFrame => cases h; exact ⟨hw.exclusive, hw.active, hw.exchanged, hw.taken⟩
  | dropFrame => cases h; exact ⟨hw.exclusive, hw.active, hw.exchanged, hw.taken⟩
  | resume =>
    simp only [World.step] at h
    split at h
    · cases h; exact ⟨hw.exclusive, hw.active, hw.exchanged, hw.taken⟩
    · cases h
  | cancelToken side =>
    simp only [World.step] at h
    split at h
    · cases h; exact hw.cancel side
    · cases h

-- ---------------------------------------------------------------------------
-- One winner
-- ---------------------------------------------------------------------------

/-- The poster's hook selected its side and the post is still to come. -/
def Poster.winning (p : Poster) : Bool :=
  match p.pc with
  | .won _ | .cancelling _ | .hooked _ | .posting => true
  | _ => false

def Poster.undecided (p : Poster) : Bool :=
  match p.pc with
  | .exchanged | .taken _ _ => true
  | _ => false

def Poster.linked (p : Poster) : Bool :=
  match p.pc with
  | .taken _ linked | .won linked | .cancelling linked | .hooked linked => linked
  | _ => true

/-- The posts made and to come number at most one, and without interference
exactly one from the moment a side is selected. -/
structure Decided (w : World) : Prop where
  wins : w.wins = w.selected.toList
  atMost : w.received + w.posters.countP Poster.winning ≤ w.selected.isSome.toNat
  exactly : w.outside = false → w.selected.isSome = true →
    w.received + w.posters.countP Poster.winning = 1
  pending : w.outside = false → w.started = true → w.selected = none →
    ∃ p ∈ w.posters, p.undecided = true
  frame : w.outside = false → w.frameCanceled = false ∧ w.frameGone = false
  linked : w.outside = false → ∀ p ∈ w.posters, p.linked = true
  resumed : ∀ side, w.resumed = some side → w.selected = some side ∧ 1 ≤ w.received

theorem Decided.init : Decided {} := by
  constructor <;> simp

theorem Decided.not_winning {w : World} (hw : Decided w) (hnone : w.selected = none) :
    w.posters.countP Poster.winning = 0 := by
  have hle := hw.atMost
  simp [hnone] at hle
  exact List.countP_eq_zero.mpr (by simpa using hle.2)

theorem Decided.move {w : World} (hw : Decided w) {p : Poster} (hp : w.posters[i]? = some p)
    (hwinning : Poster.winning ⟨p.side, pc⟩ = p.winning)
    (hundecided : w.selected = none → Poster.undecided ⟨p.side, pc⟩ = p.undecided)
    (hlinked : w.outside = false → Poster.linked ⟨p.side, pc⟩ = true) :
    Decided (w.movePoster i p.side pc) := by
  have hmove := countP_move Poster.winning hp ⟨p.side, pc⟩
  rw [hwinning, Nat.add_right_cancel_iff] at hmove
  refine ⟨hw.wins, ?_, ?_, fun ho hs hnone => ?_, hw.frame, fun ho q hmem => ?_, hw.resumed⟩
  · simpa only [World.movePoster, hmove] using hw.atMost
  · simpa only [World.movePoster, hmove] using hw.exactly
  · have hold := countP_move Poster.undecided hp ⟨p.side, pc⟩
    rw [hundecided hnone, Nat.add_right_cancel_iff] at hold
    have hpos := List.countP_pos_iff.mpr (hw.pending ho hs hnone)
    rw [← hold] at hpos
    exact List.countP_pos_iff.mp hpos
  · rcases mem_of_mem_move hmem with rfl | hmem
    · exact hlinked ho
    · exact hw.linked ho q hmem

theorem Decided.select {w : World} {hook linked : Bool} (hw : Decided w) (hnone : w.selected = none)
    (hp : w.posters[i]? = some ⟨side, .taken hook linked⟩) (winner : Winner) :
    Decided { w.movePoster i side (.won linked) with
      selected := some winner
      wins := w.wins ++ [winner] } := by
  have hmove := countP_move Poster.winning hp ⟨side, .won linked⟩
  have hzero := hw.not_winning hnone
  have hle := hw.atMost
  simp only [Poster.winning, hnone, Option.isSome_none, Bool.toNat_false, Bool.false_eq_true,
    if_true, if_false] at hmove hle
  refine ⟨?_, ?_, fun _ _ => ?_, ?_, hw.frame, fun ho q hmem => ?_, fun side' hr => ?_⟩
  · simp [hw.wins, hnone]
  · simp only [World.movePoster, Option.isSome_some, Bool.toNat_true]
    omega
  · simp only [World.movePoster]
    omega
  · simp
  · rcases mem_of_mem_move hmem with rfl | hmem
    · exact hw.linked ho ⟨side, .taken hook linked⟩ (List.mem_of_getElem? hp)
    · exact hw.linked ho q hmem
  · simpa [hnone] using hw.resumed side' hr

theorem Decided.receive {w : World} (hw : Decided w) (hp : w.posters[i]? = some ⟨side, .posting⟩) :
    Decided { w.movePoster i side .done with received := w.received + 1 } := by
  have hmove := countP_move Poster.winning hp ⟨side, .done⟩
  simp only [Poster.winning, if_true, Bool.false_eq_true, if_false] at hmove
  have hsome : w.selected.isSome = true := by
    have hle := hw.atMost
    cases hs : w.selected
    · simp only [hs, Option.isSome_none, Bool.toNat_false] at hle
      omega
    · rfl
  refine ⟨hw.wins, ?_, fun ho hs => ?_, fun _ _ hnone => ?_, hw.frame, fun ho q hmem => ?_,
    fun side' hr => ⟨(hw.resumed side' hr).1, Nat.le_add_left _ _⟩⟩
  · have hle := hw.atMost
    simp only [World.movePoster]
    omega
  · have heq := hw.exactly ho hs
    simp only [World.movePoster]
    omega
  · have hnone : w.selected = none := hnone
    simp [hnone] at hsome
  · rcases mem_of_mem_move hmem with rfl | hmem
    · rfl
    · exact hw.linked ho q hmem

theorem Decided.drop {w : World} (hw : Decided w) (hp : w.posters[i]? = some ⟨side, pc⟩)
    (hsome : w.selected.isSome = true)
    (hout : w.outside = false → Poster.winning ⟨side, pc⟩ = false) :
    Decided (w.movePoster i side .done) := by
  have hmove := countP_move Poster.winning hp ⟨side, .done⟩
  refine ⟨hw.wins, ?_, fun ho hs => ?_, fun _ _ hnone => ?_, hw.frame, fun ho q hmem => ?_, hw.resumed⟩
  · have hle := hw.atMost
    simp only [World.movePoster, Poster.winning, Bool.false_eq_true, if_false] at hmove ⊢
    omega
  · have heq := hw.exactly ho hs
    rw [hout ho] at hmove
    simp only [World.movePoster, Poster.winning, Bool.false_eq_true, if_false] at hmove ⊢
    omega
  · have hnone : w.selected = none := hnone
    simp [hnone] at hsome
  · rcases mem_of_mem_move hmem with rfl | hmem
    · rfl
    · exact hw.linked ho q hmem

theorem Decided.selected_of_winning {w : World} {p : Poster} {i : Nat} (hw : Decided w) (hp : w.posters[i]? = some p)
    (hwinning : p.winning = true) : w.selected.isSome = true := by
  have hpos := List.countP_pos_iff.mpr ⟨p, List.mem_of_getElem? hp, hwinning⟩
  have hle := hw.atMost
  cases hs : w.selected
  · simp only [hs, Option.isSome_none, Bool.toNat_false] at hle
    omega
  · rfl

theorem Decided.setToken {w : World} (hw : Decided w) (side : Side) (t : WaiterToken) :
    Decided (w.setToken side t) :=
  ⟨hw.wins, hw.atMost, hw.exactly, hw.pending, hw.frame, hw.linked, hw.resumed⟩

theorem Decided.advance {w w' : World} (hw : Decided w) (hheld : Held w)
    (hp : w.posters[i]? = some ⟨side, pc⟩) (h : w.advance i late side pc = some w') : Decided w' := by
  have hmem := List.mem_of_getElem? hp
  cases pc with
  | exchanged =>
    cases h
    refine (hw.setToken side _).move hp rfl (fun _ => rfl) fun ho => ?_
    have hlinked := (hheld.exchanged _ hmem rfl).1
    simpa [Poster.linked, hlinked] using (hw.frame ho).2
  | taken hook linked =>
    obtain rfl := hheld.taken _ hmem hook linked rfl
    simp only [World.advance] at h
    split at h
    · cases h
      exact hw.drop hp (by simp [*]) fun _ => rfl
    · cases h
      exact hw.select ‹_› hp _
  | won linked =>
    have hlinked : w.outside = false → linked = true := fun ho => hw.linked ho _ hmem
    simp only [World.advance] at h
    split at h
    · cases h
      exact (hw.setToken side.other _).move hp rfl (fun _ => rfl) hlinked
    · cases h
      exact hw.move hp rfl (fun _ => rfl) hlinked
  | cancelling linked =>
    have hlinked : w.outside = false → linked = true := fun ho => hw.linked ho _ hmem
    cases h
    exact (hw.setToken side.other _).move hp rfl (fun _ => rfl) hlinked
  | hooked linked =>
    have hsome := hw.selected_of_winning hp rfl
    simp only [World.advance] at h
    split at h
    · cases h
      exact hw.move hp rfl (fun _ => rfl) fun _ => rfl
    · rename_i hno
      cases h
      refine hw.drop hp hsome fun ho => ?_
      have hlinked := hw.linked ho _ hmem
      simp only [Poster.linked] at hlinked
      simp [hlinked, (hw.frame ho).1] at hno
  | posting => cases h; exact hw.receive hp
  | done => cases h

theorem Decided.cancel {w : World} (hw : Decided w) (side : Side) : Decided (w.cancel side) := by
  unfold World.cancel
  split
  · exact ⟨hw.wins, hw.atMost, hw.exactly, hw.pending, hw.frame, hw.linked, hw.resumed⟩
  · exact hw

theorem Decided.post_step {w : World} {p : Poster} (hw : Decided w) (hwinning : p.winning = false)
    (hlinked : p.linked = true) (started : Bool)
    (hstarted : started = true → w.started = true ∨ p.undecided = true) :
    Decided { w with posters := w.posters ++ [p], started := started } := by
  have hcount : (w.posters ++ [p]).countP Poster.winning = w.posters.countP Poster.winning := by
    simp [hwinning]
  refine ⟨hw.wins, ?_, ?_, fun ho hs hnone => ?_, hw.frame, fun ho q hmem => ?_, hw.resumed⟩
  · simpa only [hcount] using hw.atMost
  · simpa only [hcount] using hw.exactly
  · rcases hstarted hs with hs | hs
    · obtain ⟨q, hmem, hq⟩ := hw.pending ho hs hnone
      exact ⟨q, List.mem_append_left _ hmem, hq⟩
    · exact ⟨p, by simp, hs⟩
  · rcases List.mem_append.mp hmem with hmem | hmem
    · exact hw.linked ho q hmem
    · rw [List.mem_singleton.mp hmem]
      exact hlinked

theorem Decided.step {w w' : World} (hw : Decided w) (hheld : Held w) (h : w.step a = some w') :
    Decided w' := by
  have houtside : ∀ v : World, v.wins = w.wins → v.selected = w.selected → v.received = w.received →
      v.posters = w.posters → v.resumed = w.resumed → v.outside = true → Decided v := by
    intro v hwins hsel hrec hposters hres hout
    refine ⟨?_, ?_, by simp [hout], by simp [hout], by simp [hout], by simp [hout], ?_⟩
    · rw [hwins, hsel]; exact hw.wins
    · rw [hrec, hposters, hsel]; exact hw.atMost
    · rw [hres, hsel, hrec]; exact hw.resumed
  cases a with
  | setup =>
    simp only [World.step] at h
    cases hsetup : w.setup <;> rw [hsetup] at h <;> cases h <;>
      exact ⟨hw.wins, hw.atMost, hw.exactly, hw.pending, hw.frame, hw.linked, hw.resumed⟩
  | post side =>
    simp only [World.step] at h
    split at h
    · cases h
    · split at h
      · cases h
        exact (hw.setToken side _).post_step rfl rfl true fun _ => .inr rfl
      · cases h
        exact hw.post_step rfl rfl w.started fun hs => .inl hs
  | advance i late =>
    simp only [World.step] at h
    split at h
    · cases h
    · exact hw.advance hheld ‹_› h
  | cancel side =>
    cases h
    exact houtside _ (by unfold World.cancel; split <;> rfl) (by unfold World.cancel; split <;> rfl)
      (by unfold World.cancel; split <;> rfl) (by unfold World.cancel; split <;> rfl)
      (by unfold World.cancel; split <;> rfl) rfl
  | clear i =>
    simp only [World.step] at h
    split at h
    · cases h
    · cases h
      exact ⟨hw.wins, hw.atMost, hw.exactly, hw.pending, hw.frame, hw.linked, hw.resumed⟩
  | cancelFrame => cases h; exact houtside _ rfl rfl rfl rfl rfl rfl
  | dropFrame => cases h; exact houtside _ rfl rfl rfl rfl rfl rfl
  | resume =>
    simp only [World.step] at h
    split at h
    · rename_i hen
      cases h
      refine ⟨hw.wins, hw.atMost, hw.exactly, hw.pending, hw.frame, hw.linked, fun side hr => ?_⟩
      have hle := hw.atMost
      rw [hen.2.1] at hle
      cases hsel : w.selected with
      | none => simp [hsel] at hle
      | some winner => cases winner <;> cases side <;> simp_all
    · cases h
  | cancelToken side =>
    simp only [World.step] at h
    split at h
    · cases h; exact hw.cancel side
    · cases h

def Inv (w : World) : Prop := Held w ∧ Decided w

theorem Inv.step {w w' : World} (hw : Inv w) (h : w.step a = some w') : Inv w' :=
  ⟨hw.1.step h, hw.2.step hw.1 h⟩

theorem Inv.reachable (h : run World.step {} steps = some w) : Inv w :=
  run_invariant (fun _ _ _ => Inv.step) ⟨Held.init, Decided.init⟩ h

/-- The record only grows. -/
structure Grows (w w' : World) : Prop where
  received : w.received ≤ w'.received
  resumed : ∀ side, w.resumed = some side → w'.resumed = some side

theorem Grows.of_eq {w w' : World} (hreceived : w'.received = w.received)
    (hresumed : w'.resumed = w.resumed) : Grows w w' :=
  ⟨Nat.le_of_eq hreceived.symm, fun side h => by rw [hresumed]; exact h⟩

theorem Grows.cancel (w : World) (side : Side) : Grows w (w.cancel side) := by
  unfold World.cancel
  split <;> exact .of_eq rfl rfl

theorem Grows.advance {w w' : World} (h : w.advance i late side pc = some w') : Grows w w' := by
  cases pc with
  | taken hook linked =>
    cases hook
    · cases h; exact .of_eq rfl rfl
    · simp only [World.advance] at h
      split at h <;> (cases h; exact .of_eq rfl rfl)
  | won linked | hooked linked =>
    simp only [World.advance] at h
    split at h <;> (cases h; exact .of_eq rfl rfl)
  | exchanged | cancelling linked => cases h; exact .of_eq rfl rfl
  | posting => cases h; exact ⟨Nat.le_succ _, fun _ h => h⟩
  | done => cases h

theorem Grows.step {w w' : World} (h : w.step a = some w') : Grows w w' := by
  cases a with
  | setup =>
    simp only [World.step] at h
    cases hsetup : w.setup <;> rw [hsetup] at h <;> cases h <;> exact .of_eq rfl rfl
  | post side =>
    simp only [World.step] at h
    split at h
    · cases h
    · split at h <;> (cases h; exact .of_eq rfl rfl)
  | advance i late =>
    simp only [World.step] at h
    split at h
    · cases h
    · exact .advance h
  | cancel side =>
    cases h
    have hcancel := Grows.cancel w side
    exact ⟨hcancel.received, hcancel.resumed⟩
  | clear i =>
    simp only [World.step] at h
    split at h
    · cases h
    · cases h; exact .of_eq rfl rfl
  | cancelFrame | dropFrame => cases h; exact .of_eq rfl rfl
  | resume =>
    simp only [World.step] at h
    split at h
    · rename_i hen
      cases h
      exact ⟨Nat.le_refl _, fun side hr => by simp [hen.2.2.1] at hr⟩
    · cases h
  | cancelToken side =>
    simp only [World.step] at h
    split at h
    · cases h; exact .cancel w side
    · cases h

theorem Grows.run {w w' : World} (h : run World.step w after = some w') : Grows w w' :=
  run_rel (fun _ => .of_eq rfl rfl)
    (fun _ _ _ huv hvw => ⟨Nat.le_trans huv.received hvw.received,
      fun side h => hvw.resumed side (huv.resumed side h)⟩)
    (fun _ _ _ _ _ => trivial) (fun _ _ _ _ => Grows.step) trivial h

theorem Inv.received_le_one {w : World} (hw : Inv w) : w.received ≤ 1 := by
  have hle := hw.2.atMost
  have hbool := Bool.toNat_le w.selected.isSome
  omega

/-- In every interleaving the frame is posted at most once; exactly once when
all posts that started have finished, if one found its token active and nothing
outside interfered; and the result is the one the compare-exchange selected,
with no post after it. -/
theorem timed_wait_arbitration (h : run World.step {} steps = some w) :
    w.received ≤ 1 ∧
    (w.started = true → w.outside = false → (∀ p ∈ w.posters, p.pc = .done) → w.received = 1) ∧
    (∀ result, w.resumed = some result →
      (result = .timeout ↔ w.wins = [.timeout]) ∧ (result = .ready ↔ w.wins = [.ready]) ∧
      ∀ after w', run World.step w after = some w' →
        w'.received = w.received ∧ w'.resumed = some result) := by
  have hw := Inv.reachable h
  refine ⟨hw.received_le_one, fun hs ho hdone => ?_, fun result hr => ?_⟩
  · have hsome : w.selected.isSome = true := by
      cases hsel : w.selected with
      | some winner => rfl
      | none =>
        obtain ⟨p, hmem, hp⟩ := hw.2.pending ho hs hsel
        simp [Poster.undecided, hdone p hmem] at hp
    have hzero : w.posters.countP Poster.winning = 0 := by
      rw [List.countP_eq_zero]
      intro p hmem
      simp [Poster.winning, hdone p hmem]
    have heq := hw.2.exactly ho hsome
    omega
  · obtain ⟨hsel, hreceived⟩ := hw.2.resumed result hr
    have hwins := hw.2.wins
    rw [hsel, Option.toList_some] at hwins
    refine ⟨?_, ?_, fun after w' hrun => ?_⟩
    · simp [hwins]
    · simp [hwins]
    · have hw' : Inv w' := run_invariant (fun _ _ _ => Inv.step) hw hrun
      have hgrows := Grows.run hrun
      have hle := hw'.received_le_one
      have hmono := hgrows.received
      exact ⟨by omega, hgrows.resumed result hr⟩

/-- The event is set after the deadline while the timer posts too: the ready
token's hook selects the timeout and the timer's post is dropped. -/
theorem timed_wait_arbitration_late_event :
    ∃ w, run World.step {} [.setup, .setup, .setup, .setup, .post .ready, .post .timeout,
        .advance 0 true, .advance 1 false, .advance 0 true, .advance 1 false, .advance 0 true,
        .advance 0 true, .advance 0 true, .resume] = some w ∧
      w.resumed = some .timeout ∧ w.received = 1 := by
  have hreach : ∃ w, run World.step {} [.setup, .setup, .setup, .setup, .post .ready, .post .timeout,
      .advance 0 true, .advance 1 false, .advance 0 true, .advance 1 false, .advance 0 true,
      .advance 0 true, .advance 0 true, .resume] = some w ∧ w.resumed = some .timeout ∧
      w.started = true ∧ w.outside = false ∧ ∀ p ∈ w.posters, p.pc = .done :=
    ⟨_, rfl, rfl, rfl, rfl, by decide⟩
  obtain ⟨w, hrun, hresumed, hstarted, houtside, hdone⟩ := hreach
  obtain ⟨-, hexactly, -⟩ := timed_wait_arbitration hrun
  exact ⟨w, hrun, hresumed, hexactly hstarted houtside hdone⟩

end Gentest.Async.TimedWait
