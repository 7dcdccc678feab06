import Gentest.Async.SchedulerCore

/-!
# What cancelling a coroutine removes

`cancel_address_locked` recurses through the child table while it takes it
apart, and the parent table points into vectors whose elements move. The links
stay consistent enough on the way: a parent link either names the slot its
child is in, or a parent whose vector was moved out.

The result: the frames the child links reach are gone from every table, and of
what is left only the vector of the cancelled frame's own parent changed.
-/

namespace Gentest.Async.SchedulerCore

open Removal

/-- `child` is among the children of `parent`. -/
def Core.Link (s : Core) (parent child : Addr) : Prop :=
  ∃ refs, s.children.lookup parent = some refs ∧ ∃ ref ∈ refs, ref.child = child

/-- The child and parent tables agree, except that a parent whose children were
moved out may still be named. -/
structure Linked (s : Core) : Prop where
  down : ∀ p refs i ref, s.children.lookup p = some refs → refs[i]? = some ref →
    s.parents.lookup ref.child = some [⟨p, i⟩] ∧ ref.parentLinkIndex = 0
  up : ∀ c links, s.parents.lookup c = some links → ∃ p i, links = [⟨p, i⟩] ∧
    (s.children.lookup p = none ∨ ∃ refs, s.children.lookup p = some refs ∧ refs[i]? = some ⟨c, 0⟩)

theorem Linked.parent_of_link (h : Linked s) (hlink : s.Link p c) :
    ∃ i, s.parents.lookup c = some [⟨p, i⟩] := by
  obtain ⟨refs, hrefs, ref, hmem, rfl⟩ := hlink
  obtain ⟨i, hi⟩ := List.getElem?_of_mem hmem
  exact ⟨i, (h.down p refs i ref hrefs hi).1⟩

theorem Linked.parent_unique (h : Linked s) (hp : s.Link p c) (hq : s.Link q c) : p = q := by
  obtain ⟨i, hi⟩ := h.parent_of_link hp
  obtain ⟨j, hj⟩ := h.parent_of_link hq
  rw [hi, Option.some.injEq, List.singleton_inj, ParentReference.mk.injEq] at hj
  exact hj.1

-- ---------------------------------------------------------------------------
-- Taking one frame out of its parent's children
-- ---------------------------------------------------------------------------

/-- The children left when the one at `index` goes: the last takes its place. -/
def detach (refs : List ChildReference) (index : Nat) : List ChildReference :=
  match refs.getLast? with
  | none => []
  | some last => if index = refs.length - 1 then refs.dropLast else (refs.set index last).dropLast

/-- The entry of `x` in the child table once `a` is out of its parent's. -/
def Core.childrenAfter (s : Core) (a x : Addr) : Option (List ChildReference) :=
  match s.parents.lookup a with
  | some [link] =>
    if link.parent = x then
      (s.children.lookup x).bind fun refs =>
        if detach refs link.childIndex = [] then none else some (detach refs link.childIndex)
    else s.children.lookup x
  | _ => s.children.lookup x

/-- The child that takes the place of `a` among its parent's children, with
the link it gets. -/
def Core.movedSibling (s : Core) (a : Addr) : Option (Addr × ParentReference) :=
  match s.parents.lookup a with
  | some [link] =>
    (s.children.lookup link.parent).bind fun refs =>
      if link.childIndex = refs.length - 1 then none
      else refs.getLast?.map fun last => (last.child, link)
  | _ => none

/-- The entry of `x` in the parent table once `a` is out of its parent's. -/
def Core.parentsAfter (s : Core) (a x : Addr) : Option (List ParentReference) :=
  match s.movedSibling a with
  | some (moved, link) => if x = moved then some [link] else s.parents.lookup x
  | none => s.parents.lookup x

theorem relink_lookup {parents : Table (List ParentReference)} (hlookup : parents.lookup moved.child = some [link])
    (hindex : moved.parentLinkIndex = 0) (index : Nat) (x : Addr) :
    (relink parents moved index).lookup x =
      if x = moved.child then some [{ link with childIndex := index }] else parents.lookup x := by
  simp only [relink, hlookup, hindex, List.getElem?_cons_zero, List.set_cons_zero]
  exact lookup_insert_eq _ _ _ _

theorem Linked.parent_of_last {last : ChildReference} (hlinked : Linked s)
    (hrefs : s.children.lookup p = some refs) (hlast : refs.getLast? = some last) :
    s.parents.lookup last.child = some [⟨p, refs.length - 1⟩] ∧ last.parentLinkIndex = 0 := by
  rw [List.getLast?_eq_getElem?] at hlast
  exact hlinked.down p refs _ last hrefs hlast

theorem removeReference_children {s : Core} {ref last : ChildReference} (hrefs : s.children.lookup p = some refs)
    (hi : refs[i]? = some ref) (hchild : ref.child = a) (hlast : refs.getLast? = some last) :
    (removeReference a s ⟨p, i⟩).children =
      if detach refs i = [] then s.children.erase p else s.children.insert p (detach refs i) := by
  simp only [removeReference, hrefs, hi, hchild, detach, hlast, Option.map_some, ne_eq, not_true_eq_false,
    ↓reduceIte, List.isEmpty_iff]
  by_cases hend : i = refs.length - 1
  · simp [hend]
  · simp [hend]

theorem removeReference_spec (hlinked : Linked s) (ha : s.parents.lookup a = some [⟨p, i⟩])
    (hrefs : s.children.lookup p = some refs) (hi : refs[i]? = some ⟨a, 0⟩) :
    (∀ x, (removeReference a { s with parents := s.parents.erase a } ⟨p, i⟩).children.lookup x =
      s.childrenAfter a x) ∧
    (∀ x, (removeReference a { s with parents := s.parents.erase a } ⟨p, i⟩).parents.lookup x =
      if x = a then none else s.parentsAfter a x) := by
  have hlen : i < refs.length := (List.getElem?_eq_some_iff.mp hi).1
  obtain ⟨last, hlast⟩ : ∃ last, refs.getLast? = some last := by
    cases hl : refs.getLast? with
    | none => rw [List.getLast?_eq_none_iff.mp hl] at hlen; simp at hlen
    | some last => exact ⟨last, rfl⟩
  obtain ⟨hparent, hzero⟩ := hlinked.parent_of_last hrefs hlast
  refine ⟨fun x => ?_, fun x => ?_⟩
  · have hchildren := removeReference_children (s := { s with parents := s.parents.erase a }) hrefs hi rfl hlast
    simp only [hchildren, Core.childrenAfter, ha]
    by_cases hx : p = x
    · subst hx
      simp only [↓reduceIte, hrefs, Option.bind_some]
      split
      · exact Finmap.lookup_erase p s.children
      · exact Finmap.lookup_insert s.children
    · rw [if_neg hx]
      split
      · exact Finmap.lookup_erase_ne (Ne.symm hx)
      · exact Finmap.lookup_insert_of_ne _ (Ne.symm hx)
  · by_cases hend : i = refs.length - 1
    · subst hend
      have hmoved : s.movedSibling a = none := by simp [Core.movedSibling, ha, hrefs]
      simp only [removeReference, hrefs, hi, Core.parentsAfter, hmoved, Option.map_some, ne_eq,
        not_true_eq_false, ↓reduceIte]
      exact lookup_erase_eq s.parents a x
    · -- the last child moves, and it is not `a`
      have hne : last.child ≠ a := by
        intro heq
        rw [heq, ha] at hparent
        simp [hend] at hparent
      have hmoved : s.movedSibling a = some (last.child, ⟨p, i⟩) := by
        simp [Core.movedSibling, ha, hrefs, hend, hlast]
      have herased : (s.parents.erase a).lookup last.child = some [⟨p, refs.length - 1⟩] := by
        rw [lookup_erase_eq, if_neg hne, hparent]
      simp only [removeReference, hrefs, hi, Core.parentsAfter, hmoved, Option.map_some, ne_eq,
        not_true_eq_false, ↓reduceIte, hend, not_false_eq_true, hlast]
      rw [relink_lookup herased hzero, lookup_erase_eq]
      by_cases hx : x = last.child
      · simp [hx, hne]
      · simp [hx]

structure SameEntries (s s' : Core) : Prop where
  ready : s'.ready = s.ready
  frames : s'.frames = s.frames
  owners : s'.owners = s.owners
  blocked : s'.blocked = s.blocked
  waiterTokens : s'.waiterTokens = s.waiterTokens
  suspendSequence : s'.suspendSequence = s.suspendSequence

theorem removeReference_same (a : Addr) (s : Core) (link : ParentReference) :
    SameEntries s (removeReference a s link) := by
  unfold removeReference
  split
  · exact ⟨rfl, rfl, rfl, rfl, rfl, rfl⟩
  · split
    · exact ⟨rfl, rfl, rfl, rfl, rfl, rfl⟩
    · exact ⟨rfl, rfl, rfl, rfl, rfl, rfl⟩

theorem removeChildReferencesLocked_spec (hlinked : Linked s) (a : Addr) :
    SameEntries s (removeChildReferencesLocked a s) ∧
    (∀ x, (removeChildReferencesLocked a s).children.lookup x = s.childrenAfter a x) ∧
    (∀ x, (removeChildReferencesLocked a s).parents.lookup x =
      if x = a then none else s.parentsAfter a x) := by
  cases ha : s.parents.lookup a with
  | none =>
    simp only [removeChildReferencesLocked, ha, Core.childrenAfter, Core.parentsAfter, Core.movedSibling]
    refine ⟨⟨rfl, rfl, rfl, rfl, rfl, rfl⟩, fun _ => trivial, fun x => ?_⟩
    split
    · rw [‹x = a›, ha]
    · rfl
  | some links =>
    obtain ⟨p, i, rfl, hp⟩ := hlinked.up a links ha
    simp only [removeChildReferencesLocked, ha, List.foldl_cons, List.foldl_nil]
    have hsame := removeReference_same a { s with parents := s.parents.erase a } ⟨p, i⟩
    refine ⟨⟨hsame.ready, hsame.frames, hsame.owners, hsame.blocked, hsame.waiterTokens,
      hsame.suspendSequence⟩, ?_⟩
    rcases hp with hnone | ⟨refs, hrefs, hi⟩
    · simp only [removeReference, hnone, Core.childrenAfter, Core.parentsAfter, Core.movedSibling, ha]
      refine ⟨fun x => ?_, fun x => ?_⟩
      · by_cases hx : p = x
        · subst hx
          simp [hnone]
        · simp [hx]
      · simpa using lookup_erase_eq s.parents a x
    · exact removeReference_spec hlinked ha hrefs hi

-- ---------------------------------------------------------------------------
-- Closed sets of frames
-- ---------------------------------------------------------------------------

/-- The entry of a frame whose parent's children are moved out names nobody's
slot. -/
def Core.Orphan (s : Core) (a : Addr) : Prop :=
  ∀ link, s.parents.lookup a = some [link] → s.children.lookup link.parent = none

theorem Core.Orphan.childrenAfter {s : Core} {a : Addr} (h : s.Orphan a) (x : Addr) :
    s.childrenAfter a x = s.children.lookup x := by
  unfold Core.childrenAfter
  split
  · rename_i link hlink
    split
    · rename_i hx
      subst hx
      simp [h link hlink]
    · rfl
  · rfl

theorem Core.Orphan.parentsAfter {s : Core} {a : Addr} (h : s.Orphan a) (x : Addr) :
    s.parentsAfter a x = s.parents.lookup x := by
  have hmoved : s.movedSibling a = none := by
    unfold Core.movedSibling
    split
    · rename_i link hlink
      simp [h link hlink]
    · rfl
  simp [Core.parentsAfter, hmoved]

theorem Linked.parent_mem_reach (h : Linked s) (hlink : s.Link p c) (hc : c ∈ reach s.Link a) :
    c = a ∨ p ∈ reach s.Link a := by
  cases hc with
  | refl => exact .inl rfl
  | tail hreach hedge =>
    rw [h.parent_unique hlink hedge]
    exact .inr hreach

theorem Linked.without {s s' : Core} (h : Linked s) (hchildren : Without R s.children s'.children)
    (hparents : Without R s.parents s'.parents) (hup : ∀ p c, s.Link p c → c ∈ R → p ∈ R) :
    Linked s' where
  down p refs i ref hrefs hi := by
    obtain ⟨hp, hrefs⟩ := hchildren.lookup_le hrefs
    obtain ⟨hparent, hzero⟩ := h.down p refs i ref hrefs hi
    have hc : ref.child ∉ R := fun hc =>
      hp (hup p ref.child ⟨refs, hrefs, ref, List.mem_of_getElem? hi, rfl⟩ hc)
    exact ⟨(hparents.kept _ hc).trans hparent, hzero⟩
  up c links hlinks := by
    obtain ⟨hc, hlinks⟩ := hparents.lookup_le hlinks
    obtain ⟨p, i, rfl, hp⟩ := h.up c links hlinks
    refine ⟨p, i, rfl, ?_⟩
    by_cases hpR : p ∈ R
    · exact .inl (hchildren.gone p hpR)
    · rwa [hchildren.kept p hpR]

theorem link_without {s s' : Core} (hchildren : Without R s.children s'.children) (p c : Addr) :
    s'.Link p c ↔ s.Link p c ∧ p ∉ R := by
  constructor
  · rintro ⟨refs, hrefs, hc⟩
    obtain ⟨hp, hrefs⟩ := hchildren.lookup_le hrefs
    exact ⟨⟨refs, hrefs, hc⟩, hp⟩
  · rintro ⟨⟨refs, hrefs, hc⟩, hp⟩
    exact ⟨refs, (hchildren.kept p hp).trans hrefs, hc⟩

-- ---------------------------------------------------------------------------
-- The recursion
-- ---------------------------------------------------------------------------

open Classical in
/-- The frames at the addresses in `R` are cancelled and gone from the tables
that are not links, and their live tokens collected. -/
structure Erased (live : Nat → Bool) (R : Set Addr) (c c' : Cancellation) : Prop where
  frames : Without R c.core.frames c'.core.frames
  owners : Without R c.core.owners c'.core.owners
  blocked : Without R c.core.blocked c'.core.blocked
  waiterTokens : Without R c.core.waiterTokens c'.core.waiterTokens
  ready : c'.core.ready = c.core.ready.filter fun frame => frame.address ∉ R
  suspendSequence : c'.core.suspendSequence = c.core.suspendSequence
  canceled : ∀ id, id ∈ c'.canceled ↔
    id ∈ c.canceled ∨ ∃ x ∈ R, ∃ frame, c.core.frames.lookup x = some frame ∧ frame.id = id
  tokens : ∀ token, token ∈ c'.tokens ↔ token ∈ c.tokens ∨ live token = true ∧
    ∃ x ∈ R, ∃ tokens, c.core.waiterTokens.lookup x = some tokens ∧ token ∈ tokens

theorem Erased.refl (live : Nat → Bool) (c : Cancellation) : Erased live ∅ c c where
  frames := .refl _
  owners := .refl _
  blocked := .refl _
  waiterTokens := .refl _
  ready := by simp
  suspendSequence := rfl
  canceled := by simp
  tokens := by simp

theorem exists_union_without {β : Type} {m m' : Table β} (h : Without R m m') (P : β → Prop) :
    (∃ x ∈ R ∪ S, ∃ b, m.lookup x = some b ∧ P b) ↔
      (∃ x ∈ R, ∃ b, m.lookup x = some b ∧ P b) ∨ ∃ x ∈ S, ∃ b, m'.lookup x = some b ∧ P b := by
  constructor
  · rintro ⟨x, hx, b, hb, hP⟩
    by_cases hR : x ∈ R
    · exact .inl ⟨x, hR, b, hb, hP⟩
    · exact .inr ⟨x, hx.resolve_left hR, b, (h.kept x hR).trans hb, hP⟩
  · rintro (⟨x, hx, hb⟩ | ⟨x, hx, b, hb, hP⟩)
    · exact ⟨x, .inl hx, hb⟩
    · exact ⟨x, .inr hx, b, (h.lookup_le hb).2, hP⟩

theorem Erased.trans (h : Erased live R c c') (h' : Erased live S c' c'') :
    Erased live (R ∪ S) c c'' where
  frames := h.frames.trans h'.frames
  owners := h.owners.trans h'.owners
  blocked := h.blocked.trans h'.blocked
  waiterTokens := h.waiterTokens.trans h'.waiterTokens
  ready := by
    rw [h'.ready, h.ready, List.filter_filter]
    congr 1
    funext frame
    rw [Bool.eq_iff_iff]
    simp [and_comm]
  suspendSequence := h'.suspendSequence.trans h.suspendSequence
  canceled id := by
    rw [h'.canceled, h.canceled, exists_union_without h.frames (fun frame => frame.id = id), or_assoc]
  tokens token := by
    rw [h'.tokens, h.tokens, exists_union_without h.waiterTokens (fun tokens => token ∈ tokens),
      and_or_left, or_assoc]

/-- What cancelling `a` leaves of the link tables. -/
structure Unlinked (a : Addr) (s s' : Core) : Prop where
  childrenGone : ∀ x ∈ reach s.Link a, s'.children.lookup x = none
  childrenKept : ∀ x, x ∉ reach s.Link a → s'.children.lookup x = s.childrenAfter a x
  parentsGone : ∀ x ∈ reach s.Link a, s'.parents.lookup x = none
  parentsKept : ∀ x, x ∉ reach s.Link a → s'.parents.lookup x = s.parentsAfter a x

theorem Unlinked.children_of_orphan (h : Unlinked a s s') (ho : s.Orphan a) :
    Without (reach s.Link a) s.children s'.children :=
  ⟨h.childrenGone, fun x hx => (h.childrenKept x hx).trans (ho.childrenAfter x)⟩

theorem Unlinked.parents_of_orphan (h : Unlinked a s s') (ho : s.Orphan a) :
    Without (reach s.Link a) s.parents s'.parents :=
  ⟨h.parentsGone, fun x hx => (h.parentsKept x hx).trans (ho.parentsAfter x)⟩

theorem Linked.mem_parent_of_orphan (h : Linked s) (ho : s.Orphan a) (hlink : s.Link p c)
    (hc : c ∈ reach s.Link a) : p ∈ reach s.Link a := by
  rcases h.parent_mem_reach hlink hc with rfl | hp
  · obtain ⟨i, hi⟩ := h.parent_of_link hlink
    obtain ⟨refs, hrefs, -⟩ := hlink
    rw [ho _ hi] at hrefs
    cases hrefs
  · exact hp

theorem Core.Orphan.without {s s' : Core} {a : Addr} (ho : s.Orphan a)
    (hchildren : Without R s.children s'.children) (hparents : Without R s.parents s'.parents) :
    s'.Orphan a := by
  intro link hlink
  have hnone := ho link (hparents.lookup_le hlink).2
  by_cases hp : link.parent ∈ R
  · exact hchildren.gone _ hp
  · exact (hchildren.kept _ hp).trans hnone

/-- The loop over the children that were moved out: what each reaches goes, and
nothing else changes. -/
theorem cancelChildren_spec {live : Nat → Bool} {fuel : Nat}
    (ih : ∀ c a, Linked c.core → c.core.children.keys.card < fuel →
      Erased live (reach c.core.Link a) c (cancelAddressLocked live fuel c a) ∧
        Unlinked a c.core (cancelAddressLocked live fuel c a).core)
    (refs : List ChildReference) (c c' : Cancellation) (hlinked : Linked c.core)
    (hfuel : refs ≠ [] → c.core.children.keys.card < fuel)
    (horphan : ∀ ref ∈ refs, c.core.Orphan ref.child)
    (hc' : refs.foldl (fun c child => cancelAddressLocked live fuel c child.child) c = c') :
    Erased live (reachAll c.core.Link (refs.map ChildReference.child)) c c' ∧
      Without (reachAll c.core.Link (refs.map ChildReference.child)) c.core.children c'.core.children ∧
      Without (reachAll c.core.Link (refs.map ChildReference.child)) c.core.parents c'.core.parents ∧
      Linked c'.core := by
  induction refs generalizing c with
  | nil =>
    obtain rfl : c = c' := hc'
    simp only [List.map_nil, reachAll_nil]
    exact ⟨.refl live c, .refl _, .refl _, hlinked⟩
  | cons ref refs ihrefs =>
    have ho := horphan ref List.mem_cons_self
    have hfuel := hfuel (List.cons_ne_nil _ _)
    obtain ⟨herased, hunlinked⟩ := ih c ref.child hlinked hfuel
    have hchildren := hunlinked.children_of_orphan ho
    have hparents := hunlinked.parents_of_orphan ho
    have hlinked' := hlinked.without hchildren hparents fun p x => hlinked.mem_parent_of_orphan ho
    obtain ⟨hrest, hrestChildren, hrestParents, hrestLinked⟩ := ihrefs _ hlinked'
      (fun _ => Nat.lt_of_le_of_lt hchildren.keys_card_le hfuel)
      (fun r hr => (horphan r (List.mem_cons_of_mem _ hr)).without hchildren hparents) hc'
    have hunion := union_reachAll_of_closed (fun x y => reach_closed (a := ref.child))
      (link_without hchildren) (refs.map ChildReference.child)
    simp only [List.map_cons, reachAll_cons]
    rw [← hunion]
    exact ⟨herased.trans hrest, hchildren.trans hrestChildren, hparents.trans hrestParents, hrestLinked⟩

theorem movedSibling_eq_some (h : Core.movedSibling s a = some (y, link)) :
    s.parents.lookup a = some [link] ∧ s.Link link.parent y := by
  unfold Core.movedSibling at h
  split at h
  · rename_i link' hlink
    rw [Option.bind_eq_some_iff] at h
    obtain ⟨refs, hrefs, h⟩ := h
    split at h
    · cases h
    · rw [Option.map_eq_some_iff] at h
      obtain ⟨last, hlast, heq⟩ := h
      cases heq
      exact ⟨hlink, refs, hrefs, last, List.mem_of_getLast? hlast, rfl⟩
  · cases h

/-- Taking `a` out of its parent's children gives the survivors the same
entries before and after the frames below `a` are gone. -/
theorem after_eq {s s' : Core} (hreach : reach s.Link a = S ∪ {a})
    (hchildren : Without (reach s.Link a) s.children s'.children) (hparents : Without S s.parents s'.parents)
    (hup : a ∈ S → ∀ link, s.parents.lookup a = some [link] → link.parent ∈ reach s.Link a)
    (hx : x ∉ reach s.Link a) :
    s'.childrenAfter a x = s.childrenAfter a x ∧ s'.parentsAfter a x = s.parentsAfter a x := by
  have hxS : x ∉ S := fun h => hx (hreach ▸ .inl h)
  have hparentsx : s'.parents.lookup x = s.parents.lookup x := hparents.kept x hxS
  -- the sibling that moves is not `x` where the parent is reached
  have hplain : (∀ link, s.parents.lookup a = some [link] → link.parent ∈ reach s.Link a) →
      s.parentsAfter a x = s.parents.lookup x := by
    intro hp
    unfold Core.parentsAfter
    split
    · rename_i y link hmoved
      obtain ⟨hlink, hedge⟩ := movedSibling_eq_some hmoved
      exact if_neg fun hxy : x = y => hx (hxy ▸ reach_closed (hp link hlink) hedge)
    · rfl
  by_cases haS : a ∈ S
  · have hnone := hparents.gone a haS
    refine ⟨?_, ?_⟩
    · simp only [Core.childrenAfter, hnone, hchildren.kept x hx]
      split
      · rename_i link hlink
        exact (if_neg fun hpx : link.parent = x => hx (hpx ▸ hup haS link hlink)).symm
      · rfl
    · rw [hplain (hup haS)]
      simp only [Core.parentsAfter, Core.movedSibling, hnone, hparentsx]
  · have hsame := hparents.kept a haS
    refine ⟨?_, ?_⟩
    · simp only [Core.childrenAfter, hsame, hchildren.kept x hx]
    · cases hlinks : s.parents.lookup a with
      | none => simp only [Core.parentsAfter, Core.movedSibling, hsame, hlinks, hparentsx]
      | some links =>
        match links with
        | [] | _ :: _ :: _ => simp only [Core.parentsAfter, Core.movedSibling, hsame, hlinks, hparentsx]
        | [link] =>
          by_cases hp : link.parent ∈ reach s.Link a
          · rw [hplain fun link' hlink' => by
              rw [hlinks, Option.some.injEq, List.singleton_inj] at hlink'
              exact hlink' ▸ hp]
            simp only [Core.parentsAfter, Core.movedSibling, hsame, hlinks, hchildren.gone _ hp,
              Option.bind_none, hparentsx]
          · simp only [Core.parentsAfter, Core.movedSibling, hsame, hlinks, hchildren.kept _ hp, hparentsx]

theorem childrenAfter_eq_none {s : Core} (a : Addr) (h : s.children.lookup x = none) :
    s.childrenAfter a x = none := by
  unfold Core.childrenAfter
  split
  · split
    · simp [h]
    · exact h
  · exact h

theorem parentsAfter_eq_none {s : Core} (hlinked : Linked s) (a : Addr)
    (h : s.parents.lookup x = none) : s.parentsAfter a x = none := by
  unfold Core.parentsAfter
  split
  · rename_i y link hmoved
    split
    · rename_i hxy
      obtain ⟨i, hi⟩ := hlinked.parent_of_link (movedSibling_eq_some hmoved).2
      rw [← hxy, h] at hi
      cases hi
    · exact h
  · exact h

theorem Linked.eraseChildren (h : Linked s) (a : Addr) :
    Linked { s with children := s.children.erase a } where
  down p refs i ref hrefs hi := by
    exact h.down p refs i ref ((Without.erase s.children a).lookup_le hrefs).2 hi
  up c links hlinks := by
    obtain ⟨p, i, rfl, hp⟩ := h.up c links hlinks
    refine ⟨p, i, rfl, ?_⟩
    by_cases hpa : p = a
    · exact .inl (hpa ▸ Finmap.lookup_erase a s.children)
    · simpa only [Finmap.lookup_erase_ne hpa] using hp

theorem markCanceled_core (c : Cancellation) (a : Addr) : (c.markCanceled a).core = c.core := by
  unfold Cancellation.markCanceled
  split <;> rfl

theorem markCanceled_tokens (c : Cancellation) (a : Addr) : (c.markCanceled a).tokens = c.tokens := by
  unfold Cancellation.markCanceled
  split <;> rfl

theorem mem_markCanceled (c : Cancellation) (a : Addr) (id : Nat) :
    id ∈ (c.markCanceled a).canceled ↔
      id ∈ c.canceled ∨ ∃ frame, c.core.frames.lookup a = some frame ∧ frame.id = id := by
  unfold Cancellation.markCanceled Core.frameFor
  split
  · rename_i hnone
    simp [hnone]
  · rename_i frame hframe
    simp [hframe, eq_comm, or_comm]

theorem Erased.forget {c c₁ c₂ : Cancellation} (hcore : SameEntries c.core c₁.core)
    (htokens : c₁.tokens = c.tokens) (hcanceled : ∀ id, id ∈ c₁.canceled ↔
      id ∈ c.canceled ∨ ∃ frame, c.core.frames.lookup a = some frame ∧ frame.id = id)
    (h : Erased live S c₁ c₂) (hlinked : Linked c₂.core) :
    Erased live (S ∪ {a}) c (c₂.forget live a) := by
  obtain ⟨hsame, -⟩ := removeChildReferencesLocked_spec hlinked a
  have hframes : Without S c.core.frames c₂.core.frames := hcore.frames ▸ h.frames
  have hwaiters : Without S c.core.waiterTokens c₂.core.waiterTokens := hcore.waiterTokens ▸ h.waiterTokens
  refine ⟨?_, ?_, ?_, ?_, ?_, ?_, fun id => ?_, fun token => ?_⟩
  · simp only [Cancellation.forget, hsame.frames]
    exact hframes.trans (.erase _ a)
  · simp only [Cancellation.forget, hsame.owners]
    exact (hcore.owners ▸ h.owners).trans (.erase _ a)
  · simp only [Cancellation.forget, hsame.blocked]
    exact (hcore.blocked ▸ h.blocked).trans (.erase _ a)
  · simp only [Cancellation.forget, hsame.waiterTokens]
    exact hwaiters.trans (.erase _ a)
  · simp only [Cancellation.forget, hsame.ready, h.ready, hcore.ready, List.filter_filter]
    congr 1
    funext frame
    rw [Bool.eq_iff_iff]
    simp
  · exact hsame.suspendSequence.trans (h.suspendSequence.trans hcore.suspendSequence)
  · have hcanceled' := h.canceled id
    rw [hcanceled, hcore.frames] at hcanceled'
    refine hcanceled'.trans ?_
    constructor
    · rintro ((hid | hid) | ⟨x, hx, hid⟩)
      · exact .inl hid
      · exact .inr ⟨a, .inr rfl, hid⟩
      · exact .inr ⟨x, .inl hx, hid⟩
    · rintro (hid | ⟨x, hx | rfl, hid⟩)
      · exact .inl (.inl hid)
      · exact .inr ⟨x, hx, hid⟩
      · exact .inl (.inr hid)
  · have htokens' := h.tokens token
    rw [htokens, hcore.waiterTokens] at htokens'
    rw [exists_union_without hwaiters (fun tokens => token ∈ tokens), and_or_left, ← or_assoc, ← htokens']
    simp only [Cancellation.forget, hsame.waiterTokens, List.mem_append, List.mem_filter,
      Set.mem_singleton_iff, exists_eq_left]
    cases hlookup : c₂.core.waiterTokens.lookup a with
    | none => simp
    | some tokens => simp [and_comm]

theorem cancelAddressLocked_spec (live : Nat → Bool) (fuel : Nat) (c : Cancellation) (a : Addr)
    (hlinked : Linked c.core) (hfuel : c.core.children.keys.card < fuel) :
    Erased live (reach c.core.Link a) c (cancelAddressLocked live fuel c a) ∧
      Unlinked a c.core (cancelAddressLocked live fuel c a).core := by
  induction fuel generalizing c a with
  | zero => omega
  | succ fuel ih =>
    -- the children of `a` are moved out and each of them cancelled
    let refs := (c.core.children.lookup a).getD []
    let c₁ : Cancellation :=
      { c.markCanceled a with core := { c.core with children := c.core.children.erase a } }
    obtain ⟨c₂, hc₂⟩ : ∃ c₂, refs.foldl (fun c child => cancelAddressLocked live fuel c child.child) c₁ = c₂ :=
      ⟨_, rfl⟩
    have hresult : cancelAddressLocked live (fuel + 1) c a = c₂.forget live a := by
      rw [← hc₂]
      simp only [cancelAddressLocked, markCanceled_core]
      rfl
    have hroots : ∀ x, x ∈ refs.map ChildReference.child ↔ c.core.Link a x := by
      intro x
      simp only [refs, Core.Link, List.mem_map]
      cases c.core.children.lookup a with
      | none => simp
      | some refs => simp
    have herase : Without {a} c.core.children c₁.core.children := .erase _ a
    have hreach := reach_eq_insert (link_without herase) hroots
    have horphan : ∀ ref ∈ refs, c₁.core.Orphan ref.child := by
      intro ref hmem link hlink
      obtain ⟨i, hi⟩ := hlinked.parent_of_link ((hroots ref.child).mp (List.mem_map_of_mem hmem))
      have hlink : c.core.parents.lookup ref.child = some [link] := hlink
      rw [hi, Option.some.injEq, List.singleton_inj] at hlink
      exact hlink ▸ herase.gone a rfl
    have hfuel₁ : refs ≠ [] → c₁.core.children.keys.card < fuel := by
      intro hne
      cases hrefs : c.core.children.lookup a with
      | none => simp [refs, hrefs] at hne
      | some _ =>
        have hlt := keys_card_erase_lt hrefs
        show (c.core.children.erase a).keys.card < fuel
        omega
    obtain ⟨herased, hchildren, hparents, hlinked₂⟩ :=
      cancelChildren_spec ih refs c₁ c₂ (hlinked.eraseChildren a) hfuel₁ horphan hc₂
    have hchildren : Without (reach c.core.Link a) c.core.children c₂.core.children := by
      rw [hreach, Set.union_comm]
      exact herase.trans hchildren
    have hparents : Without (reachAll c₁.core.Link (refs.map ChildReference.child)) c.core.parents
        c₂.core.parents := hparents
    have hup : a ∈ reachAll c₁.core.Link (refs.map ChildReference.child) → ∀ link,
        c.core.parents.lookup a = some [link] → link.parent ∈ reach c.core.Link a := by
      rintro ⟨root, hroot, ha⟩ link hlink
      have hle : ∀ x y, c₁.core.Link x y → c.core.Link x y := fun x y h => ((link_without herase x y).mp h).1
      have hedge : ∀ y, c.core.Link y a → y ∈ reach c.core.Link a → link.parent ∈ reach c.core.Link a := by
        intro y hy hmem
        obtain ⟨i, hi⟩ := hlinked.parent_of_link hy
        rw [hi, Option.some.injEq, List.singleton_inj] at hlink
        exact hlink ▸ hmem
      cases ha with
      | refl => exact hedge a ((hroots a).mp hroot) (mem_reach_self _ a)
      | tail hreach₁ hlast =>
        refine hedge _ (hle _ _ hlast) (hreach ▸ .inl ⟨root, hroot, hreach₁⟩)
    obtain ⟨-, hchildrenAfter, hparentsAfter⟩ := removeChildReferencesLocked_spec hlinked₂ a
    have hcore : SameEntries c.core c₁.core := ⟨rfl, rfl, rfl, rfl, rfl, rfl⟩
    rw [hresult]
    refine ⟨?_, fun x hx => ?_, fun x hx => ?_, fun x hx => ?_, fun x hx => ?_⟩
    · rw [hreach]
      exact herased.forget hcore (markCanceled_tokens c a) (mem_markCanceled c a) hlinked₂
    · exact (hchildrenAfter x).trans (childrenAfter_eq_none a (hchildren.gone x hx))
    · exact (hchildrenAfter x).trans (after_eq hreach hchildren hparents hup hx).1
    · refine (hparentsAfter x).trans ?_
      by_cases hxa : x = a
      · exact if_pos hxa
      · rw [if_neg hxa]
        rw [hreach] at hx
        exact parentsAfter_eq_none hlinked₂ a (hparents.gone x (hx.resolve_right hxa))
    · have hxa : x ≠ a := by
        rintro rfl
        exact hx (mem_reach_self _ x)
      refine (hparentsAfter x).trans ?_
      rw [if_neg hxa]
      exact (after_eq hreach hchildren hparents hup hx).2

theorem cancelAddress_spec (live : Nat → Bool) (c : Cancellation) (a : Addr) (hlinked : Linked c.core) :
    Erased live (reach c.core.Link a) c (cancelAddress live c a) ∧
      Unlinked a c.core (cancelAddress live c a).core :=
  cancelAddressLocked_spec live _ c a hlinked (Nat.lt_succ_self _)

-- ---------------------------------------------------------------------------
-- Consistent tables
-- ---------------------------------------------------------------------------

/-- The tables of a core between two locked sections: the links agree, every
entry is of a known frame, and a child has its parent's owner. -/
structure Consistent (s : Core) : Prop where
  down : ∀ p refs i ref, s.children.lookup p = some refs → refs[i]? = some ref →
    s.parents.lookup ref.child = some [⟨p, i⟩] ∧ ref.parentLinkIndex = 0
  up : ∀ c links, s.parents.lookup c = some links → ∃ p i refs, links = [⟨p, i⟩] ∧
    s.children.lookup p = some refs ∧ refs[i]? = some ⟨c, 0⟩
  known : ∀ x, s.owners.lookup x = none → s.frames.lookup x = none ∧ s.children.lookup x = none ∧
    s.parents.lookup x = none ∧ s.blocked.lookup x = none ∧ s.waiterTokens.lookup x = none
  address : ∀ x frame, s.frames.lookup x = some frame → frame.address = x
  owned : ∀ x, s.frames.lookup x = none → s.owners.lookup x = none
  ready : ∀ frame ∈ s.ready, s.frames.lookup frame.address = some frame
  owner : ∀ p c, s.Link p c → s.owners.lookup c = s.owners.lookup p

theorem Consistent.linked (h : Consistent s) : Linked s where
  down := h.down
  up c links hlinks := by
    obtain ⟨p, i, refs, rfl, hrefs, hi⟩ := h.up c links hlinks
    exact ⟨p, i, rfl, .inr ⟨refs, hrefs, hi⟩⟩

theorem Consistent.link_of_parent (h : Consistent s) (hlink : s.parents.lookup c = some [link]) :
    s.Link link.parent c := by
  obtain ⟨p, i, refs, heq, hrefs, hi⟩ := h.up c _ hlink
  cases heq
  exact ⟨refs, hrefs, _, List.mem_of_getElem? hi, rfl⟩

theorem detach_getElem? (hlast : refs.getLast? = some last) (i j : Nat) :
    (detach refs i)[j]? =
      if j < refs.length - 1 then if j = i then some last else refs[j]? else none := by
  simp only [detach, hlast]
  by_cases hend : i = refs.length - 1
  · rw [if_pos hend, List.getElem?_dropLast]
    split
    · rw [if_neg (by omega)]
    · rfl
  · rw [if_neg hend, List.getElem?_dropLast, List.length_set]
    split
    · by_cases hj : j = i
      · subst hj
        rw [if_pos rfl, List.getElem?_set_self (by omega)]
      · rw [if_neg hj, List.getElem?_set_ne (Ne.symm hj)]
    · rfl

theorem getLast?_of_getElem? {refs : List ChildReference} {i : Nat} (h : refs[i]? = some ref) :
    ∃ last, refs.getLast? = some last := by
  cases hl : refs.getLast? with
  | none => rw [List.getLast?_eq_none_iff.mp hl] at h; simp at h
  | some last => exact ⟨last, rfl⟩

/-- The entry of a frame after `a` left its parent's children: as before, or
the parent's with the last child in the place of `a`. -/
theorem Consistent.childrenAfter_cases (h : Consistent s) (a p : Addr) :
    (s.childrenAfter a p = s.children.lookup p ∧
      ∀ link, s.parents.lookup a = some [link] → link.parent ≠ p) ∨
    ∃ i refs last, s.parents.lookup a = some [⟨p, i⟩] ∧ s.children.lookup p = some refs ∧
      refs[i]? = some ⟨a, 0⟩ ∧ refs.getLast? = some last ∧
      s.childrenAfter a p = if detach refs i = [] then none else some (detach refs i) := by
  cases hlinks : s.parents.lookup a with
  | none =>
    left
    simp [Core.childrenAfter, hlinks]
  | some links =>
    obtain ⟨q, i, refs, rfl, hrefs, hi⟩ := h.up a links hlinks
    by_cases hq : q = p
    · subst hq
      obtain ⟨last, hlast⟩ := getLast?_of_getElem? hi
      exact .inr ⟨i, refs, last, rfl, hrefs, hi, hlast, by simp [Core.childrenAfter, hlinks, hrefs]⟩
    · left
      refine ⟨by simp [Core.childrenAfter, hlinks, hq], ?_⟩
      rintro link hlink rfl
      cases hlink
      exact hq rfl

theorem movedSibling_of_parent {s : Core} (hlink : s.parents.lookup a = some [⟨p, i⟩])
    (hrefs : s.children.lookup p = some refs) (hlast : refs.getLast? = some last) :
    s.movedSibling a = if i = refs.length - 1 then none else some (last.child, ⟨p, i⟩) := by
  simp [Core.movedSibling, hlink, hrefs, hlast]

section Cancel
variable {s s' : Core} {a : Addr}

/-- Of the survivors' links, the one to `a` is gone and the last child has its
place; the two tables still agree. -/
theorem Consistent.down_cancel (h : Consistent s) (hu : Unlinked a s s')
    (hrefs' : s'.children.lookup p = some refs') (hi : refs'[j]? = some ref) :
    s'.parents.lookup ref.child = some [⟨p, j⟩] ∧ ref.parentLinkIndex = 0 ∧ s.Link p ref.child ∧
      p ∉ reach s.Link a := by
  have hp : p ∉ reach s.Link a := fun hp => by simp [hu.childrenGone p hp] at hrefs'
  rw [hu.childrenKept p hp] at hrefs'
  -- a child of `p` other than `a` is not reached
  have hkept : ∀ c, s.Link p c → c ≠ a → s'.parents.lookup c = s.parentsAfter a c := fun c hc hca =>
    hu.parentsKept c fun hreach => (h.linked.parent_mem_reach hc hreach).elim hca hp
  rcases h.childrenAfter_cases a p with ⟨heq, hne⟩ | ⟨i, refs, last, hlink, hrefs, hia, hlast, heq⟩
  · rw [heq] at hrefs'
    obtain ⟨hparent, hzero⟩ := h.down p refs' j ref hrefs' hi
    have hedge : s.Link p ref.child := ⟨refs', hrefs', ref, List.mem_of_getElem? hi, rfl⟩
    refine ⟨?_, hzero, hedge, hp⟩
    rw [hkept _ hedge fun hca => hne _ (hca ▸ hparent) rfl]
    unfold Core.parentsAfter
    split
    · rename_i y link hmoved
      obtain ⟨hlink, hedge'⟩ := movedSibling_eq_some hmoved
      rw [if_neg ?_]
      · exact hparent
      · rintro rfl
        exact hne link hlink (h.linked.parent_unique hedge' hedge)
    · exact hparent
  · rw [heq] at hrefs'
    split at hrefs'
    · cases hrefs'
    cases hrefs'
    obtain ⟨hlastParent, hlastZero⟩ := h.linked.parent_of_last hrefs hlast
    rw [detach_getElem? hlast] at hi
    split at hi
    · have hmoved := movedSibling_of_parent hlink hrefs hlast
      split at hi
      · -- the last child, in its new place
        rename_i hj
        obtain rfl : last = ref := Option.some.inj hi
        have hend : i ≠ refs.length - 1 := by omega
        have hedge : s.Link p last.child := ⟨refs, hrefs, last, List.mem_of_getLast? hlast, rfl⟩
        have hca : last.child ≠ a := by
          intro hca
          rw [hca, hlink] at hlastParent
          simp [hend] at hlastParent
        refine ⟨?_, hlastZero, hedge, hp⟩
        rw [hkept _ hedge hca, Core.parentsAfter, hmoved, if_neg hend, hj]
        exact if_pos rfl
      · rename_i hj
        obtain ⟨hparent, hzero⟩ := h.down p refs j ref hrefs hi
        have hedge : s.Link p ref.child := ⟨refs, hrefs, ref, List.mem_of_getElem? hi, rfl⟩
        have hca : ref.child ≠ a := by
          intro hca
          rw [hca, hlink] at hparent
          simp [Ne.symm hj] at hparent
        have hcl : ref.child ≠ last.child := by
          intro hcl
          rw [hcl, hlastParent] at hparent
          simp at hparent
          omega
        refine ⟨?_, hzero, hedge, hp⟩
        rw [hkept _ hedge hca, Core.parentsAfter, hmoved]
        split
        · rename_i hsome
          split at hsome
          · cases hsome
          · cases hsome
            rw [if_neg hcl, hparent]
        · exact hparent
    · cases hi

theorem Consistent.up_cancel (h : Consistent s) (hu : Unlinked a s s')
    (hlinks : s'.parents.lookup c = some links) :
    ∃ p i refs, links = [⟨p, i⟩] ∧ s'.children.lookup p = some refs ∧ refs[i]? = some ⟨c, 0⟩ := by
  have hc : c ∉ reach s.Link a := fun hc => by simp [hu.parentsGone c hc] at hlinks
  have hup : ∀ p, s.Link p c → p ∉ reach s.Link a := fun p hedge hp => hc (reach_closed hp hedge)
  rw [hu.parentsKept c hc] at hlinks
  have hplain : s.parents.lookup c = some links → s.movedSibling a = none ∨
      (∀ y link, s.movedSibling a = some (y, link) → c ≠ y) →
      ∃ p i refs, links = [⟨p, i⟩] ∧ s'.children.lookup p = some refs ∧ refs[i]? = some ⟨c, 0⟩ := by
    intro hlinks hstays
    obtain ⟨p, j, refs, rfl, hrefs, hj⟩ := h.up c links hlinks
    have hp := hup p ⟨refs, hrefs, _, List.mem_of_getElem? hj, rfl⟩
    refine ⟨p, j, ?_⟩
    rw [hu.childrenKept p hp]
    rcases h.childrenAfter_cases a p with ⟨heq, -⟩ | ⟨i, refs₀, last, hlink, hrefs₀, hia, hlast, heq⟩
    · exact ⟨refs, rfl, heq.trans hrefs, hj⟩
    · obtain rfl : refs₀ = refs := Option.some.inj (hrefs₀.symm.trans hrefs)
      -- `c` is neither `a` nor the child that moves, so it keeps its place
      have hji : j ≠ i := by
        rintro rfl
        rw [hia] at hj
        cases hj
        exact hc (mem_reach_self _ a)
      have hlen : j < refs₀.length := (List.getElem?_eq_some_iff.mp hj).1
      have hilen : i < refs₀.length := (List.getElem?_eq_some_iff.mp hia).1
      have hmoved := movedSibling_of_parent hlink hrefs₀ hlast
      have hjlast : j ≠ refs₀.length - 1 := by
        rintro rfl
        rw [← List.getLast?_eq_getElem?, hlast] at hj
        cases hj
        rw [if_neg (Ne.symm hji)] at hmoved
        rcases hstays with hnone | hne
        · rw [hnone] at hmoved
          cases hmoved
        · exact hne _ _ hmoved rfl
      have hget : (detach refs₀ i)[j]? = some ⟨c, 0⟩ := by
        rw [detach_getElem? hlast, if_pos (by omega), if_neg hji, hj]
      refine ⟨detach refs₀ i, rfl, ?_, hget⟩
      rw [heq, if_neg]
      intro hnil
      simp [hnil] at hget
  unfold Core.parentsAfter at hlinks
  split at hlinks
  · rename_i y link hmoved
    split at hlinks
    · -- `c` is the child that moved
      rename_i hcy
      subst hcy
      cases hlinks
      obtain ⟨hlink, hedge⟩ := movedSibling_eq_some hmoved
      obtain ⟨p, j⟩ := link
      have hp := hup _ hedge
      refine ⟨p, j, ?_⟩
      rw [hu.childrenKept _ hp]
      rcases h.childrenAfter_cases a p with ⟨-, hne⟩ | ⟨i, refs, last, hlink', hrefs, hia, hlast, heq⟩
      · exact absurd rfl (hne _ hlink)
      · have hmoved' := movedSibling_of_parent hlink' hrefs hlast
        have hend : i ≠ refs.length - 1 := by
          intro hend
          rw [if_pos hend, hmoved] at hmoved'
          cases hmoved'
        rw [if_neg hend, hmoved] at hmoved'
        cases hmoved'
        have hzero := (h.linked.parent_of_last hrefs hlast).2
        have hilen : j < refs.length := (List.getElem?_eq_some_iff.mp hia).1
        have hget : (detach refs j)[j]? = some last := by
          rw [detach_getElem? hlast, if_pos (by omega), if_pos rfl]
        refine ⟨detach refs j, rfl, ?_, ?_⟩
        · rw [heq, if_neg]
          intro hnil
          simp [hnil] at hget
        · rw [hget, ← hzero]
    · rename_i hcy
      exact hplain hlinks (.inr fun y' link' h' => by rw [hmoved] at h'; cases h'; exact hcy)
  · exact hplain hlinks (.inl ‹_›)

theorem Consistent.cancel {c c' : Cancellation} (h : Consistent c.core)
    (he : Erased live (reach c.core.Link a) c c') (hu : Unlinked a c.core c'.core) :
    Consistent c'.core where
  down p refs i ref hrefs hi :=
    let hdown := h.down_cancel hu hrefs hi
    ⟨hdown.1, hdown.2.1⟩
  up x links hlinks := h.up_cancel hu hlinks
  known x hx := by
    by_cases hR : x ∈ reach c.core.Link a
    · exact ⟨he.frames.gone x hR, hu.childrenGone x hR, hu.parentsGone x hR, he.blocked.gone x hR,
        he.waiterTokens.gone x hR⟩
    · rw [he.owners.kept x hR] at hx
      obtain ⟨hframes, hchildren, hparents, hblocked, htokens⟩ := h.known x hx
      refine ⟨?_, ?_, ?_, ?_, ?_⟩
      · exact (he.frames.kept x hR).trans hframes
      · exact (hu.childrenKept x hR).trans (childrenAfter_eq_none a hchildren)
      · exact (hu.parentsKept x hR).trans (parentsAfter_eq_none h.linked a hparents)
      · exact (he.blocked.kept x hR).trans hblocked
      · exact (he.waiterTokens.kept x hR).trans htokens
  address x frame hx := h.address x frame (he.frames.lookup_le hx).2
  owned x hx := by
    by_cases hR : x ∈ reach c.core.Link a
    · exact he.owners.gone x hR
    · rw [he.frames.kept x hR] at hx
      exact (he.owners.kept x hR).trans (h.owned x hx)
  ready frame hmem := by
    rw [he.ready] at hmem
    simp only [List.mem_filter, decide_eq_true_eq] at hmem
    exact (he.frames.kept _ hmem.2).trans (h.ready frame hmem.1)
  owner p x hlink := by
    obtain ⟨refs, hrefs, ref, hmem, rfl⟩ := hlink
    obtain ⟨i, hi⟩ := List.getElem?_of_mem hmem
    obtain ⟨hparent, -, hedge, hp⟩ := h.down_cancel hu hrefs hi
    have hx : ref.child ∉ reach c.core.Link a := fun hx => by simp [hu.parentsGone _ hx] at hparent
    rw [he.owners.kept _ hx, he.owners.kept _ hp]
    exact h.owner p ref.child hedge

theorem Consistent.link_cancel (h : Consistent s) (hu : Unlinked a s s') (hlink : s'.Link p x) :
    s.Link p x := by
  obtain ⟨refs, hrefs, ref, hmem, rfl⟩ := hlink
  obtain ⟨i, hi⟩ := List.getElem?_of_mem hmem
  exact (h.down_cancel hu hrefs hi).2.2.1

end Cancel

end Gentest.Async.SchedulerCore
