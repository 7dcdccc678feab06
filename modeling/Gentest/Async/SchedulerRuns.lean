import Gentest.Async.Cancellation

/-!
# Cancellation in every reachable core

Runs of the core's operations in any order, with the flags of frames and tokens
around it. A frame is handed to the core once, by `register_frame` for a fresh
top-level task or by `attach_child` for a child that `try_claim_waiter` claimed
and that was not started before; a new coroutine's address is not that of a
live one. `made` records which token was kept for which frame.
-/

namespace Gentest.Async.SchedulerCore

open Removal
open Interleaving (run run_invariant)

structure World where
  core : Core := {}
  /-- The frames whose canceled flag is set. -/
  canceled : List Nat := []
  /-- The tokens that are not active. -/
  inactive : List Nat := []
  /-- The tokens nobody owns any more. -/
  expired : List Nat := []
  handed : List Nat := []
  tokens : Nat := 0
  made : List (Nat × Nat) := []

inductive Step
  | registerFrame (owner : Nat) (frame : Frame)
  | attachChild (child : Frame) (parent : Addr)
  /-- The locked section of `make_waiter` for a frame it looked up before,
  and found canceled or not. -/
  | makeWaiter (frame : Frame) (foundCanceled : Bool)
  | post (frame : Frame) (done : Bool)
  | block (address : Addr) (kind : SuspendKind) (reason : String) (loc : SourceLocation)
  | yield (address : Addr) (done : Bool) (loc : SourceLocation)
  | popReady
  | clearSuspendState (frame : Frame)
  | cancelWaiters (address : Addr)
  /-- The addresses of the owner in the order the table gives them. -/
  | cancelOwner (owner : Nat) (addresses : List Addr)
  | cancelAll (addresses : List Addr)
  /-- Others set a frame's flag, use up a token or drop it. -/
  | cancelFrame (id : Nat)
  | deactivate (token : Nat)
  | expire (token : Nat)

/-- The pointer is to the one live frame of its address. -/
def World.Holds (w : World) (frame : Frame) : Prop :=
  ∀ other, w.core.frames.lookup frame.address = some other → other = frame

instance (w : World) (frame : Frame) : Decidable (w.Holds frame) :=
  match h : w.core.frames.lookup frame.address with
  | none => isTrue fun other ho => by rw [h] at ho; cases ho
  | some other =>
    if heq : other = frame then isTrue fun other' ho => by rw [h] at ho; cases ho; exact heq
    else isFalse fun hall => heq (hall other h)

/-- The frame is new to the core and its address is no live frame's. -/
def World.New (w : World) (frame : Frame) : Prop :=
  frame.id ∉ w.handed ∧ w.core.frames.lookup frame.address = none

instance (w : World) (frame : Frame) : Decidable (w.New frame) :=
  inferInstanceAs (Decidable (_ ∧ _))

def World.live (w : World) (token : Nat) : Bool := !w.expired.contains token

def World.finish (w : World) (c : Cancellation) : World :=
  { w with core := c.core, canceled := c.canceled, inactive := w.inactive ++ c.tokens }

def World.cancellation (w : World) : Cancellation := ⟨w.core, w.canceled, []⟩

def World.cancelWaiters (w : World) (address : Addr) : World :=
  w.finish (cancelAddress w.live w.cancellation address)

def World.cancelMatching (w : World) (addresses : List Addr) : World :=
  w.finish (cancelAddresses w.live w.cancellation addresses)

def World.makeWaiter (w : World) (frame : Frame) (foundCanceled : Bool) : World :=
  let w' := { w with tokens := w.tokens + 1 }
  if foundCanceled then { w' with inactive := w.tokens :: w.inactive }
  else match w.core.makeWaiter frame w.tokens with
    | none => { w' with inactive := w.tokens :: w.inactive }
    | some core => { w' with core := core, made := (w.tokens, frame.id) :: w.made }

def World.step (w : World) : Step → Option World
  | .registerFrame owner frame =>
    if w.New frame then
      some { w with core := w.core.registerFrame owner frame, handed := frame.id :: w.handed }
    else none
  | .attachChild child parent =>
    if w.New child then
      some { w with core := w.core.attachChild child parent, handed := child.id :: w.handed }
    else none
  | .makeWaiter frame foundCanceled =>
    if w.Holds frame ∧ (foundCanceled = true → frame.id ∈ w.canceled) then
      some (w.makeWaiter frame foundCanceled)
    else none
  | .post frame done =>
    if w.Holds frame then some { w with core := (w.core.post w.canceled done frame).1 } else none
  | .block address kind reason loc => some { w with core := w.core.block address kind reason loc }
  | .yield address done loc => some { w with core := (w.core.yield w.canceled done address loc).1 }
  | .popReady => some { w with core := (w.core.popReady w.canceled).2 }
  | .clearSuspendState frame => some { w with core := w.core.clearSuspendState frame }
  | .cancelWaiters address => some (w.cancelWaiters address)
  | .cancelOwner owner addresses =>
    if addresses.Nodup ∧
        addresses.toFinset = w.core.owners.keys.filter fun x => w.core.owners.lookup x = some owner then
      some (w.cancelMatching addresses)
    else none
  | .cancelAll addresses =>
    if addresses.Nodup ∧ addresses.toFinset = w.core.owners.keys then
      some (w.cancelMatching addresses)
    else none
  | .cancelFrame id => some { w with canceled := id :: w.canceled }
  | .deactivate token => some { w with inactive := token :: w.inactive }
  | .expire token => some { w with expired := token :: w.expired }

-- ---------------------------------------------------------------------------
-- Cancelling a set closed under links
-- ---------------------------------------------------------------------------

theorem Unlinked.none_stays {s s' : Core} {a : Addr} (hu : Unlinked a s s') (h : Linked s) (x : Addr) :
    (s.children.lookup x = none → s'.children.lookup x = none) ∧
      (s.parents.lookup x = none → s'.parents.lookup x = none) := by
  by_cases hx : x ∈ reach s.Link a
  · exact ⟨fun _ => hu.childrenGone x hx, fun _ => hu.parentsGone x hx⟩
  · rw [hu.childrenKept x hx, hu.parentsKept x hx]
    exact ⟨childrenAfter_eq_none a, parentsAfter_eq_none h a⟩

theorem Unlinked.outside {s s' : Core} {a : Addr} {O : Set Addr} (hu : Unlinked a s s')
    (h : Consistent s) (hreach : reach s.Link a ⊆ O) (hclosed : ∀ p x, s.Link p x → (p ∈ O ↔ x ∈ O))
    (ha : a ∈ O) (hx : x ∉ O) :
    s'.children.lookup x = s.children.lookup x ∧ s'.parents.lookup x = s.parents.lookup x := by
  have hxR : x ∉ reach s.Link a := fun hxR => hx (hreach hxR)
  have hparent : ∀ link, s.parents.lookup a = some [link] → link.parent ∈ O := fun link hlink =>
    (hclosed _ _ (h.link_of_parent hlink)).mpr ha
  rw [hu.childrenKept x hxR, hu.parentsKept x hxR]
  constructor
  · rcases h.childrenAfter_cases a x with ⟨heq, -⟩ | ⟨i, refs, last, hlink, -⟩
    · exact heq
    · exact absurd (hparent _ hlink) hx
  · unfold Core.parentsAfter
    split
    · rename_i y link hmoved
      obtain ⟨hlink, hedge⟩ := movedSibling_eq_some hmoved
      refine if_neg ?_
      rintro rfl
      exact hx ((hclosed _ _ hedge).mp (hparent link hlink))
    · rfl

/-- What cancelling a list of addresses removed, and what it left alone. -/
structure Swept (live : Nat → Bool) (O T : Set Addr) (c c' : Cancellation) : Prop where
  erased : Erased live T c c'
  consistent : Consistent c'.core
  gone : ∀ x ∈ T, c'.core.children.lookup x = none ∧ c'.core.parents.lookup x = none
  stays : ∀ x, (c.core.children.lookup x = none → c'.core.children.lookup x = none) ∧
    (c.core.parents.lookup x = none → c'.core.parents.lookup x = none)
  outside : ∀ x, x ∉ O → c'.core.children.lookup x = c.core.children.lookup x ∧
    c'.core.parents.lookup x = c.core.parents.lookup x

theorem cancelAddresses_spec {O : Set Addr} (live : Nat → Bool) (addresses : List Addr)
    (c : Cancellation) (h : Consistent c.core) (hin : ∀ x ∈ addresses, x ∈ O)
    (hclosed : ∀ p x, c.core.Link p x → (p ∈ O ↔ x ∈ O)) :
    ∃ T, (∀ x ∈ addresses, x ∈ T) ∧ T ⊆ O ∧ Swept live O T c (cancelAddresses live c addresses) := by
  induction addresses generalizing c with
  | nil =>
    refine ⟨∅, by simp, Set.empty_subset O, .refl live c, h, by simp, fun x => ⟨id, id⟩, fun x _ => ⟨rfl, rfl⟩⟩
  | cons a addresses ih =>
    have ha := hin a List.mem_cons_self
    obtain ⟨herased, hu⟩ := cancelAddress_spec live c a h.linked
    have hreach : reach c.core.Link a ⊆ O := by
      intro x hx
      induction hx with
      | refl => exact ha
      | tail _ hedge ih => exact (hclosed _ _ hedge).mp ih
    obtain ⟨T, hT, hTO, hswept⟩ := ih (cancelAddress live c a) (h.cancel herased hu)
      (fun x hx => hin x (List.mem_cons_of_mem _ hx)) (fun p x hlink => hclosed p x (h.link_cancel hu hlink))
    refine ⟨reach c.core.Link a ∪ T, ?_, Set.union_subset hreach hTO, herased.trans hswept.erased,
      hswept.consistent, ?_, fun x => ?_, fun x hx => ?_⟩
    · intro x hx
      rcases List.mem_cons.mp hx with rfl | hx
      · exact .inl (mem_reach_self _ x)
      · exact .inr (hT x hx)
    · rintro x (hx | hx)
      · exact ⟨(hswept.stays x).1 (hu.childrenGone x hx), (hswept.stays x).2 (hu.parentsGone x hx)⟩
      · exact hswept.gone x hx
    · have hstays := hu.none_stays h.linked x
      exact ⟨fun hnone => (hswept.stays x).1 (hstays.1 hnone), fun hnone => (hswept.stays x).2 (hstays.2 hnone)⟩
    · have hfirst := hu.outside h hreach hclosed ha hx
      have hrest := hswept.outside x hx
      exact ⟨hrest.1.trans hfirst.1, hrest.2.trans hfirst.2⟩

-- ---------------------------------------------------------------------------
-- The invariant
-- ---------------------------------------------------------------------------

/-- Every token kept for a frame of the core is in the frame's list, and every
frame of the core was handed over once. -/
structure Kept (w : World) : Prop where
  handed : ∀ x frame, w.core.frames.lookup x = some frame → frame.id ∈ w.handed
  distinct : ∀ x y frame other, w.core.frames.lookup x = some frame →
    w.core.frames.lookup y = some other → frame.id = other.id → x = y
  made : ∀ token id, (token, id) ∈ w.made → id ∈ w.handed
  tokens : ∀ x frame, w.core.frames.lookup x = some frame → ∀ token,
    token ∈ (w.core.waiterTokens.lookup x).getD [] ↔ (token, frame.id) ∈ w.made

structure Inv (w : World) : Prop where
  consistent : Consistent w.core
  kept : Kept w

theorem Inv.init : Inv {} := by
  refine ⟨⟨?_, ?_, ?_, ?_, ?_, ?_, ?_⟩, ⟨?_, ?_, ?_, ?_⟩⟩ <;> simp [Core.Link]

/-- An operation that leaves the tables of frames, owners, links and tokens. -/
theorem Inv.of_same {w w' : World} (hw : Inv w) (hframes : w'.core.frames = w.core.frames)
    (howners : w'.core.owners = w.core.owners) (hchildren : w'.core.children = w.core.children)
    (hparents : w'.core.parents = w.core.parents) (htokens : w'.core.waiterTokens = w.core.waiterTokens)
    (hhanded : w'.handed = w.handed) (hmade : w'.made = w.made)
    (hblocked : ∀ x, w.core.owners.lookup x = none → w'.core.blocked.lookup x = none)
    (hready : ∀ frame ∈ w'.core.ready, w.core.frames.lookup frame.address = some frame) : Inv w' := by
  obtain ⟨hc, hk⟩ := hw
  have hlink : ∀ p x, w'.core.Link p x ↔ w.core.Link p x := fun p x => by simp [Core.Link, hchildren]
  refine ⟨⟨?_, ?_, fun x hx => ?_, ?_, ?_, ?_, fun p x h => ?_⟩, ⟨?_, ?_, ?_, ?_⟩⟩
  · rw [hchildren, hparents]; exact hc.down
  · rw [hchildren, hparents]; exact hc.up
  · rw [howners] at hx
    obtain ⟨h1, h2, h3, -, h5⟩ := hc.known x hx
    rw [hframes, hchildren, hparents, htokens]
    exact ⟨h1, h2, h3, hblocked x hx, h5⟩
  · rw [hframes]; exact hc.address
  · rw [hframes, howners]; exact hc.owned
  · rw [hframes]; exact hready
  · rw [howners]
    exact hc.owner p x ((hlink p x).mp h)
  · rw [hframes, hhanded]; exact hk.handed
  · rw [hframes]; exact hk.distinct
  · rw [hmade, hhanded]; exact hk.made
  · rw [hframes, htokens, hmade]; exact hk.tokens

theorem Consistent.owned_of_child (h : Consistent s) (hlink : s.Link p c) :
    s.owners.lookup p ≠ none ∧ s.owners.lookup c ≠ none := by
  have hp : s.owners.lookup p ≠ none := by
    intro hnone
    obtain ⟨refs, hrefs, -⟩ := hlink
    rw [(h.known p hnone).2.1] at hrefs
    cases hrefs
  exact ⟨hp, h.owner p c hlink ▸ hp⟩

theorem Inv.registerFrame {w : World} (hw : Inv w) (hnew : w.New frame) (owner : Nat) :
    Inv { w with core := w.core.registerFrame owner frame, handed := frame.id :: w.handed } := by
  obtain ⟨hc, hk⟩ := hw
  obtain ⟨hid, hframe⟩ := hnew
  have howner := hc.owned _ hframe
  have hother : ∀ x, w.core.owners.lookup x ≠ none → x ≠ frame.address := by
    rintro x hx rfl
    exact hx howner
  refine ⟨⟨hc.down, hc.up, fun x hx => ?_, fun x f hx => ?_, fun x hx => ?_, fun f hf => ?_,
    fun p x hlink => ?_⟩, ⟨fun x f hx => ?_, fun x y f g hx hy hfg => ?_, fun t id h => ?_, fun x f hx t => ?_⟩⟩
  · simp only [Core.registerFrame, lookup_insert_eq] at hx ⊢
    split at hx
    · cases hx
    · rw [if_neg ‹_›]
      exact hc.known x hx
  · simp only [Core.registerFrame, lookup_insert_eq] at hx
    split at hx
    · cases hx
      exact (‹x = frame.address›).symm
    · exact hc.address x f hx
  · simp only [Core.registerFrame, lookup_insert_eq] at hx ⊢
    split at hx
    · cases hx
    · rw [if_neg ‹_›]
      exact hc.owned x hx
  · have hold := hc.ready f hf
    have hne : f.address ≠ frame.address := by
      intro heq
      rw [heq, hframe] at hold
      cases hold
    simp only [Core.registerFrame, lookup_insert_eq, if_neg hne]
    exact hold
  · have hlink : w.core.Link p x := hlink
    obtain ⟨hp, hx⟩ := hc.owned_of_child hlink
    simp only [Core.registerFrame, lookup_insert_eq, if_neg (hother p hp), if_neg (hother x hx)]
    exact hc.owner p x hlink
  · simp only [Core.registerFrame, lookup_insert_eq] at hx
    split at hx
    · cases hx
      exact List.mem_cons_self
    · exact List.mem_cons_of_mem _ (hk.handed x f hx)
  · simp only [Core.registerFrame, lookup_insert_eq] at hx hy
    split at hx <;> split at hy
    · simp [*]
    · cases hx
      exact absurd (hfg ▸ hk.handed y g hy) hid
    · cases hy
      exact absurd (hfg ▸ hk.handed x f hx) hid
    · exact hk.distinct x y f g hx hy hfg
  · exact List.mem_cons_of_mem _ (hk.made t id h)
  · simp only [Core.registerFrame, lookup_insert_eq] at hx ⊢
    split at hx
    · cases hx
      rw [‹x = frame.address›, (hc.known _ howner).2.2.2.2]
      simp only [Option.getD_none, List.not_mem_nil, false_iff]
      exact fun h => hid (hk.made t _ h)
    · exact hk.tokens x f hx t

/-- Attaching a child is registering it with its parent's owner and linking the
two. -/
theorem attachChild_eq {w : World} (hw : Inv w) (hnew : w.New child)
    (howner : w.core.owners.lookup parent = some owner) :
    w.core.attachChild child parent =
      { w.core.registerFrame owner child with
        children := w.core.children.insert parent
          ((w.core.children.lookup parent).getD [] ++ [⟨child.address, 0⟩])
        parents := w.core.parents.insert child.address
          [⟨parent, ((w.core.children.lookup parent).getD []).length⟩] } := by
  have hnone := (hw.consistent.known _ (hw.consistent.owned _ hnew.2)).2.2.1
  simp [Core.attachChild, Core.ownerFor, howner, hnone, Core.registerFrame]

theorem Inv.link {w : World} (hw : Inv w) {child parent : Addr}
    (hparent : w.core.owners.lookup parent = some owner) (hchild : w.core.owners.lookup child = some owner)
    (hnone : w.core.parents.lookup child = none) :
    Inv { w with core := { w.core with
      children := w.core.children.insert parent
        ((w.core.children.lookup parent).getD [] ++ [⟨child, 0⟩])
      parents := w.core.parents.insert child
        [⟨parent, ((w.core.children.lookup parent).getD []).length⟩] } } := by
  obtain ⟨hc, hk⟩ := hw
  have hknown : ∀ x, w.core.owners.lookup x = none → x ≠ parent ∧ x ≠ child := by
    intro x hx
    constructor
    · rintro rfl
      rw [hparent] at hx
      cases hx
    · rintro rfl
      rw [hchild] at hx
      cases hx
  have hrefs : ∀ (i : Nat) ref, ((w.core.children.lookup parent).getD [])[i]? = some ref →
      ∃ refs, w.core.children.lookup parent = some refs ∧ refs[i]? = some ref := by
    intro i ref h
    cases hlookup : w.core.children.lookup parent with
    | none => simp [hlookup] at h
    | some refs => exact ⟨refs, rfl, by simpa [hlookup] using h⟩
  have hlinked : ∀ c, w.core.parents.lookup c ≠ none → c ≠ child := by
    rintro c hc rfl
    exact hc hnone
  refine ⟨⟨fun p refs' i ref hp hi => ?_, fun c links hlinks => ?_, fun x hx => ?_, hc.address, hc.owned,
    hc.ready, fun p c hlink => ?_⟩, ⟨hk.handed, hk.distinct, hk.made, hk.tokens⟩⟩
  · simp only [lookup_insert_eq] at hp ⊢
    split at hp
    · rename_i hpp
      subst hpp
      cases hp
      rw [List.getElem?_append] at hi
      split at hi
      · obtain ⟨refs, hlookup, hi⟩ := hrefs i ref hi
        obtain ⟨hparent', hzero⟩ := hc.down p refs i ref hlookup hi
        rw [if_neg (hlinked _ (by simp [hparent']))]
        exact ⟨hparent', hzero⟩
      · rename_i hge
        rw [List.getElem?_singleton] at hi
        split at hi
        · cases hi
          have hi' : i = ((w.core.children.lookup p).getD []).length := by omega
          exact ⟨by simp [hi'], rfl⟩
        · cases hi
    · obtain ⟨hparent', hzero⟩ := hc.down p refs' i ref hp hi
      rw [if_neg (hlinked _ (by simp [hparent']))]
      exact ⟨hparent', hzero⟩
  · simp only [lookup_insert_eq] at hlinks ⊢
    split at hlinks
    · rename_i hcc
      cases hlinks
      exact ⟨parent, _, _, rfl, if_pos rfl, by simp [hcc]⟩
    · obtain ⟨p, i, refs, rfl, hp, hi⟩ := hc.up c links hlinks
      by_cases hpp : p = parent
      · subst hpp
        refine ⟨p, i, _, rfl, if_pos rfl, ?_⟩
        rw [hp, Option.getD_some, List.getElem?_append_left (List.getElem?_eq_some_iff.mp hi).1, hi]
      · exact ⟨p, i, refs, rfl, by rw [if_neg hpp, hp], hi⟩
  · obtain ⟨hxp, hxc⟩ := hknown x hx
    obtain ⟨h1, h2, h3, h4, h5⟩ := hc.known x hx
    simp only [lookup_insert_eq, if_neg hxp, if_neg hxc]
    exact ⟨h1, h2, h3, h4, h5⟩
  · obtain ⟨refs', hp, ref, hmem, rfl⟩ := hlink
    simp only [lookup_insert_eq] at hp
    split at hp
    · rename_i hpp
      subst hpp
      cases hp
      rcases List.mem_append.mp hmem with hmem | hmem
      · obtain ⟨i, hi⟩ := List.getElem?_of_mem hmem
        obtain ⟨refs, hlookup, hi⟩ := hrefs i ref hi
        exact hc.owner p _ ⟨refs, hlookup, ref, List.mem_of_getElem? hi, rfl⟩
      · rw [List.mem_singleton.mp hmem]
        exact hchild.trans hparent.symm
    · exact hc.owner p _ ⟨refs', hp, ref, hmem, rfl⟩

theorem Inv.attachChild {w : World} (hw : Inv w) (hnew : w.New child) (parent : Addr) :
    Inv { w with core := w.core.attachChild child parent, handed := child.id :: w.handed } := by
  cases howner : w.core.owners.lookup parent with
  | none =>
    have hcore : w.core.attachChild child parent = w.core := by
      simp [Core.attachChild, Core.ownerFor, howner]
    rw [hcore]
    refine ⟨hw.consistent, ⟨fun x f hx => ?_, hw.kept.distinct, fun t id h => ?_, hw.kept.tokens⟩⟩
    · exact List.mem_cons_of_mem _ (hw.kept.handed x f hx)
    · exact List.mem_cons_of_mem _ (hw.kept.made t id h)
  | some owner =>
    have hcowner := hw.consistent.owned _ hnew.2
    have hne : parent ≠ child.address := by
      rintro rfl
      rw [hcowner] at howner
      cases howner
    rw [attachChild_eq hw hnew howner]
    refine (hw.registerFrame hnew owner).link (?_ : _ = some owner) ?_ ?_
    · simp only [Core.registerFrame, lookup_insert_eq, if_neg hne]
      exact howner
    · simp [Core.registerFrame]
    · exact (hw.consistent.known _ hcowner).2.2.1

theorem Inv.makeWaiter {w : World} (hw : Inv w) (hholds : w.Holds frame) (foundCanceled : Bool) :
    Inv (w.makeWaiter frame foundCanceled) := by
  have hidle : Inv { w with tokens := w.tokens + 1, inactive := w.tokens :: w.inactive } :=
    ⟨hw.consistent, ⟨hw.kept.handed, hw.kept.distinct, hw.kept.made, hw.kept.tokens⟩⟩
  unfold World.makeWaiter
  split
  · exact hidle
  cases howner : w.core.owners.lookup frame.address with
  | none =>
    simp only [Core.makeWaiter, Core.ownerFor, howner]
    exact hidle
  | some owner =>
    simp only [Core.makeWaiter, Core.ownerFor, howner]
    obtain ⟨hc, hk⟩ := hw
    have hframe : w.core.frames.lookup frame.address = some frame := by
      cases hlookup : w.core.frames.lookup frame.address with
      | none => rw [hc.owned _ hlookup] at howner; cases howner
      | some other => rw [hholds other hlookup]
    refine ⟨⟨hc.down, hc.up, fun x hx => ?_, hc.address, hc.owned, hc.ready, hc.owner⟩,
      ⟨hk.handed, hk.distinct, fun t id h => ?_, fun x f hx t => ?_⟩⟩
    · obtain ⟨h1, h2, h3, h4, h5⟩ := hc.known x hx
      have hne : x ≠ frame.address := by
        rintro rfl
        rw [howner] at hx
        cases hx
      simp only [lookup_insert_eq, if_neg hne]
      exact ⟨h1, h2, h3, h4, h5⟩
    · rcases List.mem_cons.mp h with heq | h
      · cases heq
        exact hk.handed _ frame hframe
      · exact hk.made t id h
    · have hold := hk.tokens x f hx t
      simp only [lookup_insert_eq]
      split
      · rename_i hxf
        subst hxf
        obtain rfl : frame = f := Option.some.inj (hframe.symm.trans hx)
        simp [hold, or_comm]
      · rename_i hxf
        have hid : f.id ≠ frame.id := fun heq => hxf (hk.distinct x _ f frame hx hframe heq)
        simp [hold, hid]

theorem Inv.post {w : World} (hw : Inv w) (hholds : w.Holds frame) (done : Bool) :
    Inv { w with core := (w.core.post w.canceled done frame).1 } := by
  have hc := hw.consistent
  have hblocked : ∀ x, w.core.owners.lookup x = none → (w.core.blocked.erase frame.address).lookup x = none := by
    intro x hx
    rw [lookup_erase_eq]
    split
    · rfl
    · exact (hc.known x hx).2.2.2.1
  cases howner : w.core.owners.lookup frame.address with
  | none =>
    simp only [Core.post, Core.ownerFor, howner]
    exact hw.of_same rfl rfl rfl rfl rfl rfl rfl hblocked hc.ready
  | some owner =>
    simp only [Core.post, Core.ownerFor, howner]
    split
    · exact hw.of_same rfl rfl rfl rfl rfl rfl rfl hblocked hc.ready
    · refine hw.of_same rfl rfl rfl rfl rfl rfl rfl hblocked fun f hf => ?_
      rcases List.mem_append.mp hf with hf | hf
      · exact hc.ready f hf
      · rw [List.mem_singleton.mp hf]
        cases hlookup : w.core.frames.lookup frame.address with
        | none => rw [hc.owned _ hlookup] at howner; cases howner
        | some other => rw [hholds other hlookup]

theorem Inv.blocked_insert {w : World} (hw : Inv w) (howner : w.core.owners.lookup address = some owner)
    (b : BlockedHandle) (x : Addr) (hx : w.core.owners.lookup x = none) :
    (w.core.blocked.insert address b).lookup x = none := by
  have hne : x ≠ address := by
    rintro rfl
    rw [howner] at hx
    cases hx
  rw [lookup_insert_eq, if_neg hne]
  exact (hw.consistent.known x hx).2.2.2.1

theorem Inv.block {w : World} (hw : Inv w) (address : Addr) (kind : SuspendKind) (reason : String)
    (loc : SourceLocation) : Inv { w with core := w.core.block address kind reason loc } := by
  unfold Core.block Core.ownerFor
  split
  · exact hw
  · rename_i owner howner
    exact hw.of_same rfl rfl rfl rfl rfl rfl rfl (hw.blocked_insert howner _) hw.consistent.ready

theorem Inv.yield {w : World} (hw : Inv w) (done : Bool) (address : Addr) (loc : SourceLocation) :
    Inv { w with core := (w.core.yield w.canceled done address loc).1 } := by
  unfold Core.yield Core.ownerFor Core.frameFor
  split
  · rename_i frame owner hframe howner
    split
    · exact hw
    · refine hw.of_same rfl rfl rfl rfl rfl rfl rfl (hw.blocked_insert howner _) fun f hf => ?_
      rcases List.mem_append.mp hf with hf | hf
      · exact hw.consistent.ready f hf
      · rw [List.mem_singleton.mp hf, hw.consistent.address _ _ hframe]
        exact hframe
  · exact hw

theorem popReadyFrom_subset (canceled : List Nat) (ready : List Frame) :
    (popReadyFrom canceled ready).2 ⊆ ready := by
  induction ready with
  | nil => simp [popReadyFrom]
  | cons frame rest ih =>
    unfold popReadyFrom
    split
    · exact List.Subset.trans ih (List.subset_cons_self _ _)
    · exact List.subset_cons_self _ _

theorem Kept.cancel {w : World} {c : Cancellation} (hk : Kept w)
    (he : Erased w.live T w.cancellation c) : Kept (w.finish c) where
  handed x f hx := hk.handed x f (he.frames.lookup_le hx).2
  distinct x y f g hx hy := hk.distinct x y f g (he.frames.lookup_le hx).2 (he.frames.lookup_le hy).2
  made := hk.made
  tokens x f hx t := by
    obtain ⟨hT, hx⟩ := he.frames.lookup_le hx
    have hsame := he.waiterTokens.kept x hT
    simp only [World.finish]
    rw [hsame]
    exact hk.tokens x f hx t

theorem Inv.cancelWaiters {w : World} (hw : Inv w) (a : Addr) : Inv (w.cancelWaiters a) := by
  obtain ⟨he, hu⟩ := cancelAddress_spec w.live w.cancellation a hw.consistent.linked
  exact ⟨hw.consistent.cancel he hu, hw.kept.cancel he⟩

def Core.ownedBy (s : Core) (owner : Nat) : Set Addr := {x | s.owners.lookup x = some owner}

theorem Consistent.ownedBy_closed (h : Consistent s) (owner : Nat) (p x : Addr) (hlink : s.Link p x) :
    p ∈ s.ownedBy owner ↔ x ∈ s.ownedBy owner := by
  simp [Core.ownedBy, h.owner p x hlink]

theorem Inv.cancelOwner {w : World} (hw : Inv w)
    (hlist : ∀ x, x ∈ addresses ↔ w.core.owners.lookup x = some owner) :
    Swept w.live (w.core.ownedBy owner) (w.core.ownedBy owner) w.cancellation
      (cancelAddresses w.live w.cancellation addresses) := by
  obtain ⟨T, hT, hTO, hswept⟩ := cancelAddresses_spec (O := w.core.ownedBy owner) w.live addresses
    w.cancellation hw.consistent (fun x hx => (hlist x).mp hx) (hw.consistent.ownedBy_closed owner)
  have heq : T = w.core.ownedBy owner :=
    Set.Subset.antisymm hTO fun x hx => hT x ((hlist x).mpr hx)
  rw [heq] at hswept
  exact hswept

theorem mem_of_toFinset_eq_keys {w : World} {owner : Nat} {addresses : List Addr} (h : addresses.toFinset =
    w.core.owners.keys.filter fun x => w.core.owners.lookup x = some owner) (x : Addr) :
    x ∈ addresses ↔ w.core.owners.lookup x = some owner := by
  rw [← List.mem_toFinset, h, Finset.mem_filter, Finmap.mem_keys]
  exact ⟨And.right, fun hx => ⟨Finmap.mem_of_lookup_eq_some hx, hx⟩⟩

theorem Inv.step {w w' : World} (hw : Inv w) (h : w.step a = some w') : Inv w' := by
  have hflags : ∀ v : World, v.core = w.core → v.handed = w.handed → v.made = w.made → Inv v :=
    fun v hcore hhanded hmade => hw.of_same (by rw [hcore]) (by rw [hcore]) (by rw [hcore]) (by rw [hcore])
      (by rw [hcore]) hhanded hmade (fun x hx => by rw [hcore]; exact (hw.consistent.known x hx).2.2.2.1)
      (by rw [hcore]; exact hw.consistent.ready)
  cases a with
  | registerFrame owner frame =>
    simp only [World.step] at h
    split at h
    · cases h; exact hw.registerFrame ‹_› owner
    · cases h
  | attachChild child parent =>
    simp only [World.step] at h
    split at h
    · cases h; exact hw.attachChild ‹_› parent
    · cases h
  | makeWaiter frame foundCanceled =>
    simp only [World.step] at h
    split at h
    · rename_i hen
      cases h; exact hw.makeWaiter hen.1 foundCanceled
    · cases h
  | post frame done =>
    simp only [World.step] at h
    split at h
    · cases h; exact hw.post ‹_› done
    · cases h
  | block address kind reason loc => cases h; exact hw.block address kind reason loc
  | yield address done loc => cases h; exact hw.yield done address loc
  | popReady =>
    cases h
    exact hw.of_same rfl rfl rfl rfl rfl rfl rfl (fun x hx => (hw.consistent.known x hx).2.2.2.1)
      fun f hf => hw.consistent.ready f (popReadyFrom_subset _ _ hf)
  | clearSuspendState frame =>
    cases h
    refine hw.of_same rfl rfl rfl rfl rfl rfl rfl (fun x hx => ?_) hw.consistent.ready
    simp only [Core.clearSuspendState, lookup_erase_eq]
    split
    · rfl
    · exact (hw.consistent.known x hx).2.2.2.1
  | cancelWaiters address => cases h; exact hw.cancelWaiters address
  | cancelOwner owner addresses =>
    simp only [World.step] at h
    split at h
    · rename_i hen
      cases h
      have hswept := hw.cancelOwner (mem_of_toFinset_eq_keys hen.2)
      exact ⟨hswept.consistent, hw.kept.cancel hswept.erased⟩
    · cases h
  | cancelAll addresses =>
    simp only [World.step] at h
    split at h
    · cases h
      obtain ⟨T, -, -, hswept⟩ := cancelAddresses_spec (O := Set.univ) w.live addresses w.cancellation
        hw.consistent (fun _ _ => trivial) (fun _ _ _ => Iff.rfl)
      exact ⟨hswept.consistent, hw.kept.cancel hswept.erased⟩
    · cases h
  | cancelFrame id => cases h; exact hflags _ rfl rfl rfl
  | deactivate token => cases h; exact hflags _ rfl rfl rfl
  | expire token => cases h; exact hflags _ rfl rfl rfl

theorem Inv.reachable (h : run World.step {} steps = some w) : Inv w :=
  run_invariant (fun _ _ _ => Inv.step) Inv.init h

-- ---------------------------------------------------------------------------
-- Exactness
-- ---------------------------------------------------------------------------

open Classical in
/-- Exactly the frames at the addresses in `R` are cancelled and removed, with
their live tokens, and the ready queue keeps the order of the others. -/
structure Exact (R : Set Addr) (w w' : World) : Prop where
  frames : Without R w.core.frames w'.core.frames
  owners : Without R w.core.owners w'.core.owners
  blocked : Without R w.core.blocked w'.core.blocked
  waiterTokens : Without R w.core.waiterTokens w'.core.waiterTokens
  links : ∀ x ∈ R, w'.core.children.lookup x = none ∧ w'.core.parents.lookup x = none
  ready : w'.core.ready = w.core.ready.filter fun frame => frame.address ∉ R
  canceled : ∀ id, id ∈ w'.canceled ↔
    id ∈ w.canceled ∨ ∃ x ∈ R, ∃ frame, w.core.frames.lookup x = some frame ∧ frame.id = id
  inactive : ∀ token, token ∈ w'.inactive ↔ token ∈ w.inactive ∨ token ∉ w.expired ∧
    ∃ x ∈ R, ∃ frame, w.core.frames.lookup x = some frame ∧ (token, frame.id) ∈ w.made

theorem Inv.exact {w : World} {c : Cancellation} (hw : Inv w) (he : Erased w.live R w.cancellation c)
    (hlinks : ∀ x ∈ R, c.core.children.lookup x = none ∧ c.core.parents.lookup x = none) :
    Exact R w (w.finish c) where
  frames := he.frames
  owners := he.owners
  blocked := he.blocked
  waiterTokens := he.waiterTokens
  links := hlinks
  ready := he.ready
  canceled := he.canceled
  inactive token := by
    have htokens := he.tokens token
    simp only [World.finish, List.mem_append, htokens, World.cancellation, List.not_mem_nil, false_or]
    refine or_congr_right (and_congr (by simp [World.live]) ?_)
    constructor
    · rintro ⟨x, hx, tokens, hlookup, hmem⟩
      cases hframe : w.core.frames.lookup x with
      | none =>
        rw [(hw.consistent.known x (hw.consistent.owned x hframe)).2.2.2.2] at hlookup
        cases hlookup
      | some frame =>
        refine ⟨x, hx, frame, hframe, (hw.kept.tokens x frame hframe token).mp ?_⟩
        simpa [hlookup] using hmem
    · rintro ⟨x, hx, frame, hframe, hmade⟩
      have hmem := (hw.kept.tokens x frame hframe token).mpr hmade
      cases hlookup : w.core.waiterTokens.lookup x with
      | none => simp [hlookup] at hmem
      | some tokens => exact ⟨x, hx, tokens, hlookup, by simpa [hlookup] using hmem⟩

theorem Consistent.link_cancel_iff {s s' : Core} {a : Addr} (h : Consistent s) (hu : Unlinked a s s')
    (p x : Addr) :
    s'.Link p x ↔ s.Link p x ∧ p ∉ reach s.Link a ∧ x ∉ reach s.Link a := by
  constructor
  · rintro ⟨refs, hrefs, ref, hmem, rfl⟩
    obtain ⟨i, hi⟩ := List.getElem?_of_mem hmem
    obtain ⟨hparent, -, hedge, hp⟩ := h.down_cancel hu hrefs hi
    exact ⟨hedge, hp, fun hx => by simp [hu.parentsGone _ hx] at hparent⟩
  · rintro ⟨hedge, hp, hx⟩
    obtain ⟨i, hi⟩ := h.linked.parent_of_link hedge
    -- the parent link of `x` still names `p`
    obtain ⟨j, hj⟩ : ∃ j, s'.parents.lookup x = some [⟨p, j⟩] := by
      rw [hu.parentsKept x hx]
      unfold Core.parentsAfter
      split
      · rename_i y link hmoved
        split
        · rename_i hxy
          subst hxy
          obtain rfl := h.linked.parent_unique (movedSibling_eq_some hmoved).2 hedge
          exact ⟨link.childIndex, rfl⟩
        · exact ⟨i, hi⟩
      · exact ⟨i, hi⟩
    obtain ⟨q, k, refs, heq, hrefs, hk⟩ := h.up_cancel hu hj
    cases heq
    exact ⟨refs, hrefs, _, List.mem_of_getElem? hk, rfl⟩

/-- In every reachable core, `cancel_waiters` removes exactly the frames the
child links reach, and of the links left only those to the frame's own parent
change place; `cancel_owner` removes exactly the owner's frames and changes no
entry of another. -/
theorem cancellation_exact (h : run World.step {} steps = some w) :
    (∀ a, Exact (reach w.core.Link a) w (w.cancelWaiters a) ∧
      (∀ p x, (w.cancelWaiters a).core.Link p x ↔
        w.core.Link p x ∧ p ∉ reach w.core.Link a ∧ x ∉ reach w.core.Link a) ∧
      ∀ x, x ∉ reach w.core.Link a →
        (w.cancelWaiters a).core.children.lookup x = w.core.childrenAfter a x ∧
        (w.cancelWaiters a).core.parents.lookup x = w.core.parentsAfter a x) ∧
    ∀ owner addresses w', w.step (.cancelOwner owner addresses) = some w' →
      Exact (w.core.ownedBy owner) w w' ∧
      ∀ x, w.core.owners.lookup x ≠ some owner →
        w'.core.children.lookup x = w.core.children.lookup x ∧
        w'.core.parents.lookup x = w.core.parents.lookup x := by
  have hw := Inv.reachable h
  refine ⟨fun a => ?_, fun owner addresses w' hstep => ?_⟩
  · obtain ⟨he, hu⟩ := cancelAddress_spec w.live w.cancellation a hw.consistent.linked
    exact ⟨hw.exact he fun x hx => ⟨hu.childrenGone x hx, hu.parentsGone x hx⟩,
      hw.consistent.link_cancel_iff hu, fun x hx => ⟨hu.childrenKept x hx, hu.parentsKept x hx⟩⟩
  · simp only [World.step] at hstep
    split at hstep
    · rename_i hen
      cases hstep
      have hswept := hw.cancelOwner (mem_of_toFinset_eq_keys hen.2)
      exact ⟨hw.exact hswept.erased hswept.gone, fun x hx => hswept.outside x hx⟩
    · cases hstep

def siblings : List Step :=
  [.registerFrame 0 ⟨0, 1⟩, .attachChild ⟨1, 2⟩ 1, .attachChild ⟨2, 3⟩ 1, .attachChild ⟨3, 4⟩ 1,
    .makeWaiter ⟨1, 2⟩ false]

/-- Cancelling the first child cancels it and its token. -/
theorem cancellation_exact_first_child :
    ∃ w, run World.step {} siblings = some w ∧ 1 ∈ (w.cancelWaiters 2).canceled ∧
      0 ∈ (w.cancelWaiters 2).inactive := by
  have hreach : ∃ w, run World.step {} siblings = some w ∧ w.core.frames.lookup 2 = some ⟨1, 2⟩ ∧
      (0, 1) ∈ w.made ∧ w.expired = [] := ⟨_, rfl, rfl, by decide, rfl⟩
  obtain ⟨w, hrun, hframe, hmade, hexpired⟩ := hreach
  obtain ⟨hexact, -⟩ := (cancellation_exact hrun).1 2
  have hroot : 2 ∈ reach w.core.Link 2 := mem_reach_self _ 2
  exact ⟨w, hrun, (hexact.canceled 1).mpr (.inr ⟨2, hroot, _, hframe, rfl⟩),
    (hexact.inactive 0).mpr (.inr ⟨by simp [hexpired], 2, hroot, _, hframe, hmade⟩)⟩

/-- The parent entry of a sibling that is not reached changes: the sibling takes
the place of the child that was cancelled. -/
theorem cancel_renumbers_sibling :
    ∃ w, run World.step {} siblings = some w ∧ 4 ∉ reach w.core.Link 2 ∧
      w.core.parents.lookup 4 = some [⟨1, 2⟩] ∧
      (w.cancelWaiters 2).core.parents.lookup 4 = some [⟨1, 0⟩] := by
  have hreach : ∃ w, run World.step {} siblings = some w ∧ w.core.children.lookup 2 = none ∧
      w.core.parents.lookup 4 = some [⟨1, 2⟩] ∧
      (w.cancelWaiters 2).core.parents.lookup 4 = some [⟨1, 0⟩] := ⟨_, rfl, rfl, rfl, rfl⟩
  obtain ⟨w, hrun, hleaf, hbefore, hafter⟩ := hreach
  refine ⟨w, hrun, fun hmem => ?_, hbefore, hafter⟩
  rcases Relation.ReflTransGen.cases_head hmem with heq | ⟨c, ⟨refs, hrefs, -⟩, -⟩
  · cases heq
  · rw [hleaf] at hrefs
    cases hrefs

end Gentest.Async.SchedulerCore
