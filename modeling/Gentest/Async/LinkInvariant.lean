import Gentest.Async.Cancellation

/-!
# Links between children and parents

Every link stands in two tables, and each entry knows the place of the other. A child
may hang on several parents and links may form cycles. Removal moves the last child of
a parent and patches the index that this child keeps; meanwhile vectors of children are
out of their table, so a link may name a parent without entry.

The agreement of the tables is stated over a view of the parent links. While the links
of one frame are taken away one by one, the view holds those still to come.
-/

namespace Gentest.Async.SchedulerCore

open Removal
open Interleaving (run run_invariant)

-- ---------------------------------------------------------------------------
-- Agreement of children and parent links
-- ---------------------------------------------------------------------------

abbrev View := Addr → Nat → Option ParentReference

structure Agree (children : Table (List ChildReference)) (view : View) : Prop where
  down : ∀ p refs i ref, children.lookup p = some refs → refs[i]? = some ref →
    view ref.child ref.parentLinkIndex = some ⟨p, i⟩
  up : ∀ c l p i refs, view c l = some ⟨p, i⟩ → children.lookup p = some refs → refs[i]? = some ⟨c, l⟩
  nonempty : ∀ p, children.lookup p ≠ some []
  distinct : ∀ c l l' p i i', view c l = some ⟨p, i⟩ → view c l' = some ⟨p, i'⟩ → l = l'

/-- A link of `c` names the parent `p`, whose children are not in the table. -/
def Stale (children : Table (List ChildReference)) (view : View) (c p : Addr) : Prop :=
  ∃ l i, view c l = some ⟨p, i⟩ ∧ children.lookup p = none

/-- The view once link `l` of `a` is gone and the last child of its parent moved. -/
def View.unlink (view : View) (a : Addr) (l : Nat) (last : ChildReference) (link : ParentReference) : View :=
  fun c k => if c = a ∧ k = l then none
    else if c = last.child ∧ k = last.parentLinkIndex then some link else view c k

theorem View.unlink_eq_some {view : View} {a c : Addr} {l k : Nat} {last : ChildReference}
    {link link' : ParentReference} : view.unlink a l last link c k = some link' ↔ ¬(c = a ∧ k = l) ∧
      if c = last.child ∧ k = last.parentLinkIndex then link = link' else view c k = some link' := by
  unfold View.unlink
  by_cases hgone : c = a ∧ k = l
  · simp [hgone]
  · rw [if_neg hgone]
    split <;> simp [hgone]

section Unlink

variable {children children' : Table (List ChildReference)} {view : View} {a p : Addr} {l i : Nat}
  {refs : List ChildReference} {last : ChildReference}

theorem Agree.drop (h : Agree children view) (hlink : view a l = some ⟨p, i⟩) (hnone : children.lookup p = none) :
    Agree children (fun c k => if c = a ∧ k = l then none else view c k) where
  down q refs j ref hrefs hj := by
    have hview := h.down q refs j ref hrefs hj
    refine (if_neg ?_).trans hview
    rintro ⟨rfl, rfl⟩
    rw [hlink] at hview
    cases hview
    rw [hnone] at hrefs
    cases hrefs
  up c k q j refs hview hrefs := by
    split at hview
    · cases hview
    · exact h.up c k q j refs hview hrefs
  nonempty := h.nonempty
  distinct c k k' q j j' hk hk' := by
    split at hk
    · cases hk
    · split at hk'
      · cases hk'
      · exact h.distinct c k k' q j j' hk hk'

theorem Agree.unlink (h : Agree children view) (hlink : view a l = some ⟨p, i⟩)
    (hrefs : children.lookup p = some refs) (hlast : refs.getLast? = some last)
    (hleft : ∀ q, children'.lookup q =
      if q = p then if detach refs i = [] then none else some (detach refs i) else children.lookup q) :
    Agree children' (view.unlink a l last ⟨p, i⟩) := by
  have hat := h.up a l p i refs hlink hrefs
  have hlen : i < refs.length := (List.getElem?_eq_some_iff.mp hat).1
  have hlastAt : refs[refs.length - 1]? = some last := by rwa [← List.getLast?_eq_getElem?]
  have hlastView := h.down p refs _ last hrefs hlastAt
  -- an entry that stays where it is keeps its link
  have hstays : ∀ c k q j, view c k = some ⟨q, j⟩ → (q = p → j ≠ i ∧ j ≠ refs.length - 1) →
      view.unlink a l last ⟨p, i⟩ c k = some ⟨q, j⟩ := by
    intro c k q j hview hplace
    refine View.unlink_eq_some.mpr ⟨?_, ?_⟩
    · rintro ⟨rfl, rfl⟩
      rw [hlink] at hview
      cases hview
      exact (hplace rfl).1 rfl
    · rw [if_neg]
      · exact hview
      · rintro ⟨rfl, rfl⟩
        rw [hlastView] at hview
        cases hview
        exact (hplace rfl).2 rfl
  refine ⟨?_, ?_, ?_, ?_⟩
  · intro q refs' j ref hrefs' hj
    rw [hleft] at hrefs'
    by_cases hq : q = p
    · subst hq
      rw [if_pos rfl] at hrefs'
      split at hrefs'
      · cases hrefs'
      · cases hrefs'
        rw [detach_getElem? hlast] at hj
        split at hj
        · split at hj
          · -- the last child, in its new place
            subst i
            obtain rfl : last = ref := Option.some.inj hj
            refine View.unlink_eq_some.mpr ⟨?_, by rw [if_pos ⟨rfl, rfl⟩]⟩
            rintro ⟨hchild, hindex⟩
            rw [hchild, hindex, hlink] at hlastView
            cases hlastView
            omega
          · exact hstays _ _ _ _ (h.down q refs j ref hrefs hj) fun _ => ⟨‹_›, by omega⟩
        · cases hj
    · rw [if_neg hq] at hrefs'
      exact hstays _ _ _ _ (h.down q refs' j ref hrefs' hj) fun heq => absurd heq hq
  · intro c k q j refs' hlinked hrefs'
    obtain ⟨hgone, hview⟩ := View.unlink_eq_some.mp hlinked
    clear hlinked
    rw [hleft] at hrefs'
    split at hview
    · rename_i hmoved
      obtain ⟨rfl, rfl⟩ := hmoved
      cases hview
      rw [if_pos rfl] at hrefs'
      split at hrefs'
      · cases hrefs'
      · cases hrefs'
        have hend : i ≠ refs.length - 1 := by
          rintro rfl
          rw [hlastAt] at hat
          cases hat
          exact hgone ⟨rfl, rfl⟩
        rw [detach_getElem? hlast, if_pos (by omega), if_pos rfl]
    · rename_i hmoved
      by_cases hq : q = p
      · subst hq
        have hj := h.up c k q j refs hview hrefs
        have hjlen : j < refs.length := (List.getElem?_eq_some_iff.mp hj).1
        have hji : j ≠ i := by
          rintro rfl
          rw [hat] at hj
          cases hj
          exact hgone ⟨rfl, rfl⟩
        have hjlast : j ≠ refs.length - 1 := by
          rintro rfl
          rw [hlastAt] at hj
          cases hj
          exact hmoved ⟨rfl, rfl⟩
        rw [if_pos rfl] at hrefs'
        split at hrefs'
        · cases hrefs'
        · cases hrefs'
          rw [detach_getElem? hlast, if_pos (by omega), if_neg hji, hj]
      · rw [if_neg hq] at hrefs'
        exact h.up c k q j refs' hview hrefs'
  · intro q
    rw [hleft]
    split
    · split
      · exact nofun
      · rename_i hne
        exact fun heq => hne (Option.some.inj heq)
    · exact h.nonempty q
  · -- a link that moves keeps its parent
    have hparent : ∀ c k q j, view.unlink a l last ⟨p, i⟩ c k = some ⟨q, j⟩ → ∃ j', view c k = some ⟨q, j'⟩ := by
      intro c k q j hlinked
      obtain ⟨-, hview⟩ := View.unlink_eq_some.mp hlinked
      clear hlinked
      split at hview
      · rename_i hmoved
        obtain ⟨rfl, rfl⟩ := hmoved
        cases hview
        exact ⟨_, hlastView⟩
      · exact ⟨j, hview⟩
    intro c k k' q j j' hk hk'
    obtain ⟨_, hk⟩ := hparent c k q j hk
    obtain ⟨_, hk'⟩ := hparent c k' q j' hk'
    exact h.distinct c k k' q _ _ hk hk'

theorem Agree.stale_unlink (h : Agree children view) (hlink : view a l = some ⟨p, i⟩)
    (hrefs : children.lookup p = some refs) (hlast : refs.getLast? = some last)
    (hleft : ∀ q, children'.lookup q =
      if q = p then if detach refs i = [] then none else some (detach refs i) else children.lookup q)
    {c q : Addr} (hstale : Stale children' (view.unlink a l last ⟨p, i⟩) c q) : Stale children view c q := by
  obtain ⟨k, j, hlinked, hnone⟩ := hstale
  obtain ⟨hgone, hview⟩ := View.unlink_eq_some.mp hlinked
  clear hlinked
  rw [hleft] at hnone
  by_cases hq : q = p
  · subst hq
    rw [if_pos rfl] at hnone
    split at hnone
    · rename_i hempty
      -- the one child left was the one that is taken out
      have hat := h.up a l q i refs hlink hrefs
      have hlen : i < refs.length := (List.getElem?_eq_some_iff.mp hat).1
      have hone : refs.length = 1 := by
        by_contra hmore
        have hfirst := detach_getElem? hlast i 0
        rw [hempty, if_pos (by omega), List.getElem?_nil] at hfirst
        split at hfirst
        · cases hfirst
        · have hshort := List.getElem?_eq_none_iff.mp hfirst.symm
          omega
      have hlastAt : refs[refs.length - 1]? = some last := by rwa [← List.getLast?_eq_getElem?]
      have hzero : i = refs.length - 1 := by omega
      rw [← hzero, hat] at hlastAt
      cases hlastAt
      rw [if_neg hgone] at hview
      have hj := h.up c k q j refs hview hrefs
      have hjlen : j < refs.length := (List.getElem?_eq_some_iff.mp hj).1
      have hji : j = i := by omega
      rw [hji, hat] at hj
      cases hj
      exact absurd ⟨rfl, rfl⟩ hgone
    · cases hnone
  · rw [if_neg hq] at hnone
    split at hview
    · cases hview
      exact absurd rfl hq
    · exact ⟨k, j, hview, hnone⟩

end Unlink

-- ---------------------------------------------------------------------------
-- Taking away the links of one frame
-- ---------------------------------------------------------------------------

def Core.view (s : Core) : View := fun c l => ((s.parents.lookup c).getD [])[l]?

/-- The view while the links of `a` are taken away: `links` are to come, from index `k` on. -/
def Core.pendingView (s : Core) (a : Addr) (k : Nat) (links : List ParentReference) : View :=
  fun c l => if c = a then if l < k then none else links[l - k]? else s.view c l

structure Smaller (s s' : Core) : Prop where
  children : ∀ p, s.children.lookup p = none → s'.children.lookup p = none
  parents : ∀ c, s.parents.lookup c = none → s'.parents.lookup c = none

theorem Smaller.refl (s : Core) : Smaller s s := ⟨fun _ h => h, fun _ h => h⟩

theorem Smaller.trans {s s' s'' : Core} (h : Smaller s s') (h' : Smaller s' s'') : Smaller s s'' :=
  ⟨fun p hp => h'.children p (h.children p hp), fun c hc => h'.parents c (h.parents c hc)⟩

theorem Smaller.keys_card_le {s s' : Core} (h : Smaller s s') :
    s'.children.keys.card ≤ s.children.keys.card := by
  refine Finset.card_le_card fun x hx => ?_
  rw [Finmap.mem_keys] at hx ⊢
  by_contra hnone
  exact Finmap.lookup_eq_none.mp (h.children x (Finmap.lookup_eq_none.mpr hnone)) hx

theorem relink_none {parents : Table (List ParentReference)} {moved : ChildReference} {index : Nat} {c : Addr}
    (h : parents.lookup c = none) : (relink parents moved index).lookup c = none := by
  unfold relink
  split
  · exact h
  · rename_i links hlinks
    split
    · exact h
    · rw [lookup_insert_eq, if_neg, h]
      rintro rfl
      rw [h] at hlinks
      cases hlinks

theorem relink_view {s : Core} {moved : ChildReference} {link : ParentReference} {index : Nat}
    (h : s.view moved.child moved.parentLinkIndex = some link) (c : Addr) (l : Nat) :
    (((relink s.parents moved index).lookup c).getD [])[l]? =
      if c = moved.child ∧ l = moved.parentLinkIndex then some { link with childIndex := index } else s.view c l := by
  unfold Core.view at h ⊢
  cases hlinks : s.parents.lookup moved.child with
  | none =>
    rw [hlinks] at h
    cases h
  | some links =>
    rw [hlinks, Option.getD_some] at h
    have hlen : moved.parentLinkIndex < links.length := (List.getElem?_eq_some_iff.mp h).1
    simp only [relink, hlinks, h]
    rw [lookup_insert_eq]
    by_cases hc : c = moved.child
    · subst hc
      by_cases hl : l = moved.parentLinkIndex
      · subst hl
        rw [if_pos rfl, if_pos ⟨rfl, rfl⟩, Option.getD_some, List.getElem?_set_self hlen]
      · rw [if_pos rfl, if_neg fun h => hl h.2, Option.getD_some, List.getElem?_set_ne (Ne.symm hl), hlinks,
          Option.getD_some]
    · rw [if_neg hc, if_neg fun h => hc h.1]

theorem eraseParents_smaller (s : Core) (a : Addr) : Smaller s { s with parents := s.parents.erase a } := by
  refine ⟨fun p hp => hp, fun c hc => ?_⟩
  rw [lookup_erase_eq, hc, ite_self]

theorem removeReference_smaller (a : Addr) (s : Core) (link : ParentReference) :
    Smaller s (removeReference a s link) := by
  unfold removeReference
  split
  · exact .refl s
  · rename_i children hchildren
    split
    · exact .refl s
    · refine ⟨fun p hp => ?_, fun c hc => ?_⟩
      · have hne : p ≠ link.parent := by
          rintro rfl
          rw [hp] at hchildren
          cases hchildren
        have hentry : ∀ left : List ChildReference, (if left.isEmpty then s.children.erase link.parent
            else s.children.insert link.parent left).lookup p = none := by
          intro left
          split
          · rw [lookup_erase_eq, if_neg hne, hp]
          · rw [lookup_insert_eq, if_neg hne, hp]
        exact hentry _
      · dsimp only
        split
        · exact hc
        · exact relink_none hc

theorem removeLinks_smaller (a : Addr) (links : List ParentReference) (s : Core) :
    Smaller s (links.foldl (removeReference a) s) := by
  induction links generalizing s with
  | nil => exact .refl s
  | cons link links ih => exact (removeReference_smaller a s link).trans (ih _)

/-- The links agree, and none is left behind that was not before. -/
structure Carried (before : Addr → Addr → Prop) (children : Table (List ChildReference)) (view : View) : Prop where
  agree : Agree children view
  stale : ∀ c p, Stale children view c p → before c p

theorem removeReference_parents {s : Core} {a p : Addr} {i : Nat} {refs : List ChildReference}
    {ref last : ChildReference} (hrefs : s.children.lookup p = some refs) (hi : refs[i]? = some ref)
    (hchild : ref.child = a) (hlast : refs.getLast? = some last) :
    (removeReference a s ⟨p, i⟩).parents = if i = refs.length - 1 then s.parents else relink s.parents last i := by
  simp only [removeReference, hrefs, hi, hchild, hlast, Option.map_some, ne_eq, not_true_eq_false, ↓reduceIte]
  by_cases hend : i = refs.length - 1
  · simp [hend]
  · simp [hend]

theorem pendingView_first {s : Core} {a : Addr} {k : Nat} {link : ParentReference} {links : List ParentReference} :
    s.pendingView a k (link :: links) a k = some link := by
  simp [Core.pendingView]

theorem pendingView_of_ne {s : Core} {a c : Addr} (hc : c ≠ a) (k : Nat) (links : List ParentReference) (l : Nat) :
    s.pendingView a k links c l = s.view c l := if_neg hc

theorem pendingView_rest {s : Core} {a : Addr} {k l : Nat} (hl : l ≠ k) (link : ParentReference)
    (links : List ParentReference) :
    s.pendingView a (k + 1) links a l = s.pendingView a k (link :: links) a l := by
  unfold Core.pendingView
  rw [if_pos rfl, if_pos rfl]
  by_cases hlt : l < k
  · rw [if_pos hlt, if_pos (by omega)]
  · obtain ⟨n, hn⟩ : ∃ n, l - k = n + 1 := ⟨l - k - 1, by omega⟩
    have hrest : l - (k + 1) = n := by omega
    rw [if_neg hlt, if_neg (by omega), hn, hrest, List.getElem?_cons_succ]

theorem removeReference_carried {s : Core} {a : Addr} {k : Nat} {link : ParentReference} {links : List ParentReference}
    {before : Addr → Addr → Prop} (h : Carried before s.children (s.pendingView a k (link :: links))) :
    Carried before (removeReference a s link).children ((removeReference a s link).pendingView a (k + 1) links) := by
  obtain ⟨p, i⟩ := link
  have hlink : s.pendingView a k (⟨p, i⟩ :: links) a k = some ⟨p, i⟩ := pendingView_first
  cases hrefs : s.children.lookup p with
  | none =>
    have hsame : removeReference a s ⟨p, i⟩ = s := by simp [removeReference, hrefs]
    have hview : s.pendingView a (k + 1) links = fun c l =>
        if c = a ∧ l = k then none else s.pendingView a k (⟨p, i⟩ :: links) c l := by
      funext c l
      by_cases hc : c = a
      · subst hc
        by_cases hl : l = k
        · subst hl
          simp [Core.pendingView]
        · rw [if_neg fun h => hl h.2, pendingView_rest hl]
      · rw [if_neg fun h => hc h.1, pendingView_of_ne hc, pendingView_of_ne hc]
    rw [hsame, hview]
    refine ⟨h.agree.drop hlink hrefs, ?_⟩
    rintro c q ⟨l, j, hstale, hnone⟩
    dsimp only at hstale
    split at hstale
    · cases hstale
    · exact h.stale c q ⟨l, j, hstale, hnone⟩
  | some refs =>
    have hat := h.agree.up a k p i refs hlink hrefs
    obtain ⟨last, hlast⟩ := getLast?_of_getElem? hat
    have hlastAt : refs[refs.length - 1]? = some last := by rwa [← List.getLast?_eq_getElem?]
    have hlastView := h.agree.down p refs _ last hrefs hlastAt
    have hchildren := removeReference_children hrefs hat rfl hlast
    have hleft : ∀ q, (removeReference a s ⟨p, i⟩).children.lookup q =
        if q = p then if detach refs i = [] then none else some (detach refs i) else s.children.lookup q := by
      intro q
      rw [hchildren]
      split
      · rw [lookup_erase_eq]
      · rw [lookup_insert_eq]
    -- the child that moves is another one
    have hother : ∀ l, l ≠ k → ¬(a = last.child ∧ l = last.parentLinkIndex) := by
      rintro l hl ⟨rfl, rfl⟩
      exact hl (h.agree.distinct _ _ _ p _ _ hlastView hlink)
    have hview : (removeReference a s ⟨p, i⟩).pendingView a (k + 1) links =
        (s.pendingView a k (⟨p, i⟩ :: links)).unlink a k last ⟨p, i⟩ := by
      funext c l
      unfold View.unlink
      by_cases hc : c = a
      · subst hc
        by_cases hl : l = k
        · subst hl
          simp [Core.pendingView]
        · rw [if_neg fun h => hl h.2, if_neg (hother l hl), ← pendingView_rest hl]
          unfold Core.pendingView
          rw [if_pos rfl, if_pos rfl]
      · rw [if_neg fun h => hc h.1, pendingView_of_ne hc, pendingView_of_ne hc, Core.view,
          removeReference_parents hrefs hat rfl hlast]
        by_cases hend : i = refs.length - 1
        · rw [if_pos hend, if_neg]
          · rfl
          · rintro ⟨rfl, -⟩
            rw [← hend, hat] at hlastAt
            cases hlastAt
            exact hc rfl
        · have hne : last.child ≠ a := by
            intro heq
            by_cases hk : last.parentLinkIndex = k
            · rw [heq, hk, hlink] at hlastView
              cases hlastView
              exact hend rfl
            · exact hother _ hk ⟨heq.symm, rfl⟩
          rw [pendingView_of_ne hne] at hlastView
          rw [if_neg hend, relink_view hlastView]
    rw [hview]
    exact ⟨h.agree.unlink hlink hrefs hlast hleft, fun c q hstale =>
      h.stale c q (h.agree.stale_unlink hlink hrefs hlast hleft hstale)⟩

theorem removeLinks_carried {a : Addr} {links : List ParentReference} {s : Core} {k : Nat}
    {before : Addr → Addr → Prop} (ha : s.parents.lookup a = none)
    (h : Carried before s.children (s.pendingView a k links)) :
    Carried before (links.foldl (removeReference a) s).children (links.foldl (removeReference a) s).view := by
  induction links generalizing s k with
  | nil =>
    have hview : s.pendingView a k [] = s.view := by
      funext c l
      unfold Core.pendingView
      by_cases hc : c = a
      · rw [if_pos hc, Core.view, hc, ha]
        split <;> simp
      · rw [if_neg hc]
    rw [hview] at h
    exact h
  | cons link links ih =>
    exact ih ((removeReference_smaller a s link).parents a ha) (removeReference_carried h)

theorem removeChildReferencesLocked_carried {s : Core} {before : Addr → Addr → Prop}
    (h : Carried before s.children s.view) (a : Addr) :
    Carried before (removeChildReferencesLocked a s).children (removeChildReferencesLocked a s).view ∧
      Smaller s (removeChildReferencesLocked a s) ∧ (removeChildReferencesLocked a s).parents.lookup a = none := by
  cases ha : s.parents.lookup a with
  | none =>
    simp only [removeChildReferencesLocked, ha]
    exact ⟨h, .refl s, trivial⟩
  | some links =>
    simp only [removeChildReferencesLocked, ha]
    let s₁ : Core := { s with parents := s.parents.erase a }
    have hgone : s₁.parents.lookup a = none := Finmap.lookup_erase a s.parents
    have hview : s₁.pendingView a 0 links = s.view := by
      funext c l
      unfold Core.pendingView
      by_cases hc : c = a
      · rw [if_pos hc, if_neg (Nat.not_lt_zero l), Nat.sub_zero, Core.view, hc, ha, Option.getD_some]
      · rw [if_neg hc, Core.view, Core.view, lookup_erase_eq, if_neg hc]
    have hstart : Carried before s₁.children (s₁.pendingView a 0 links) := by
      rw [hview]
      exact h
    have hloop := removeLinks_smaller a links s₁
    exact ⟨removeLinks_carried hgone hstart, (eraseParents_smaller s a).trans hloop,
      hloop.parents a hgone⟩

-- ---------------------------------------------------------------------------
-- The recursion
-- ---------------------------------------------------------------------------

/-- `cancel_address_locked` up to its recursion: the frame is flagged and its children
are moved out of the table. -/
def Cancellation.moveOut (c : Cancellation) (a : Addr) : Cancellation :=
  { c.markCanceled a with
    core := { c.core with children := c.core.children.erase a } }

def Cancellation.childrenOf (c : Cancellation) (a : Addr) : List Addr :=
  ((c.core.children.lookup a).getD []).map ChildReference.child

theorem cancelAddressLocked_succ (live : Nat → Bool) (fuel : Nat) (c : Cancellation) (a : Addr) :
    cancelAddressLocked live (fuel + 1) c a =
      ((c.childrenOf a).foldl (cancelAddressLocked live fuel) (c.moveOut a)).forget live a := by
  rw [cancelAddressLocked, Cancellation.childrenOf, List.foldl_map, Cancellation.moveOut, markCanceled_core]

theorem moveOut_smaller (c : Cancellation) (a : Addr) : Smaller c.core (c.moveOut a).core := by
  refine ⟨fun p hp => ?_, fun _ hc => hc⟩
  change (c.core.children.erase a).lookup p = none
  rw [lookup_erase_eq, hp, ite_self]

theorem forget_smaller (live : Nat → Bool) (c : Cancellation) (a : Addr) : Smaller c.core (c.forget live a).core := by
  have h : Smaller c.core (removeChildReferencesLocked a c.core) := by
    unfold removeChildReferencesLocked
    split
    · exact .refl _
    · exact (eraseParents_smaller c.core a).trans (removeLinks_smaller a _ _)
  exact ⟨h.children, h.parents⟩

theorem foldl_smaller {f : Cancellation → Addr → Cancellation} (hf : ∀ c a, Smaller c.core (f c a).core)
    (addresses : List Addr) (c : Cancellation) : Smaller c.core (addresses.foldl f c).core := by
  induction addresses generalizing c with
  | nil => exact .refl _
  | cons a addresses ih => exact (hf c a).trans (ih _)

theorem cancelAddressLocked_smaller (live : Nat → Bool) (fuel : Nat) (c : Cancellation) (a : Addr) :
    Smaller c.core (cancelAddressLocked live fuel c a).core := by
  induction fuel generalizing c a with
  | zero => exact .refl _
  | succ fuel ih =>
    rw [cancelAddressLocked_succ]
    exact (moveOut_smaller c a).trans ((foldl_smaller ih _ _).trans (forget_smaller live _ a))

theorem moveOut_card_lt {c : Cancellation} {a : Addr} (h : c.childrenOf a ≠ []) :
    (c.moveOut a).core.children.keys.card < c.core.children.keys.card := by
  unfold Cancellation.childrenOf at h
  cases hrefs : c.core.children.lookup a with
  | none => simp [hrefs] at h
  | some refs => exact keys_card_erase_lt hrefs

/-- What the recursion carries along: the agreement, and no new link without parent. -/
def Cancellation.Carries (before : Addr → Addr → Prop) (c : Cancellation) : Prop :=
  Carried before c.core.children c.core.view

/-- Moving the children of `a` out only makes their links to `a` stale. -/
theorem Cancellation.Carries.moveOut {before : Addr → Addr → Prop} {c : Cancellation} (h : c.Carries before) (a : Addr) :
    (c.moveOut a).Carries fun x p => before x p ∨ x ∈ c.childrenOf a := by
  have hlookup : ∀ p, (c.moveOut a).core.children.lookup p = if p = a then none else c.core.children.lookup p :=
    lookup_erase_eq c.core.children a
  refine ⟨⟨?_, ?_, ?_, h.agree.distinct⟩, ?_⟩
  · intro p refs i ref hrefs hi
    rw [hlookup] at hrefs
    split at hrefs
    · cases hrefs
    · exact h.agree.down p refs i ref hrefs hi
  · intro x l p i refs hview hrefs
    rw [hlookup] at hrefs
    split at hrefs
    · cases hrefs
    · exact h.agree.up x l p i refs hview hrefs
  · intro p
    rw [hlookup]
    split
    · exact nofun
    · exact h.agree.nonempty p
  · rintro x p ⟨l, i, hview, hnone⟩
    rw [hlookup] at hnone
    split at hnone
    · subst p
      cases hrefs : c.core.children.lookup a with
      | none => exact .inl (h.stale x a ⟨l, i, hview, hrefs⟩)
      | some refs =>
        refine .inr ?_
        rw [Cancellation.childrenOf, hrefs]
        exact List.mem_map.mpr ⟨_, List.mem_of_getElem? (h.agree.up x l a i refs hview hrefs), rfl⟩
    · exact .inl (h.stale x p ⟨l, i, hview, hnone⟩)

theorem Cancellation.Carries.settle {before : Addr → Addr → Prop} {children : List Addr} {c : Cancellation}
    (h : c.Carries fun x p => before x p ∨ x ∈ children) (hgone : ∀ x ∈ children, c.core.parents.lookup x = none) :
    c.Carries before := by
  refine ⟨h.agree, ?_⟩
  rintro x p hstale
  refine (h.stale x p hstale).resolve_right fun hx => ?_
  obtain ⟨l, i, hview, -⟩ := hstale
  rw [Core.view, hgone x hx] at hview
  cases hview

theorem Cancellation.Carries.forget {before : Addr → Addr → Prop} {c : Cancellation} (h : c.Carries before)
    (live : Nat → Bool) (a : Addr) :
    (c.forget live a).Carries before ∧ (c.forget live a).core.parents.lookup a = none := by
  obtain ⟨hcarried, -, hgone⟩ := removeChildReferencesLocked_carried h a
  exact ⟨hcarried, hgone⟩

theorem cancelChildren_carries {live : Nat → Bool} {fuel : Nat} {before : Addr → Addr → Prop}
    (hcall : ∀ c a, c.Carries before → c.core.children.keys.card < fuel →
      (cancelAddressLocked live fuel c a).Carries before ∧
        (cancelAddressLocked live fuel c a).core.parents.lookup a = none)
    (addresses : List Addr) (c : Cancellation) (h : c.Carries before)
    (hfuel : addresses ≠ [] → c.core.children.keys.card < fuel) :
    (addresses.foldl (cancelAddressLocked live fuel) c).Carries before ∧
      ∀ x ∈ addresses, (addresses.foldl (cancelAddressLocked live fuel) c).core.parents.lookup x = none := by
  induction addresses generalizing c with
  | nil => exact ⟨h, fun _ hx => (nomatch hx)⟩
  | cons x addresses ih =>
    have hlt := hfuel (List.cons_ne_nil _ _)
    obtain ⟨hfirst, hgone⟩ := hcall c x h hlt
    have hle := (cancelAddressLocked_smaller live fuel c x).keys_card_le
    obtain ⟨hrest, hgoneRest⟩ := ih _ hfirst fun _ => Nat.lt_of_le_of_lt hle hlt
    refine ⟨hrest, List.forall_mem_cons.mpr ⟨?_, hgoneRest⟩⟩
    exact (foldl_smaller (cancelAddressLocked_smaller live fuel) addresses (cancelAddressLocked live fuel c x)).parents
      x hgone

theorem cancelAddressLocked_carries (live : Nat → Bool) (fuel : Nat) (before : Addr → Addr → Prop) (c : Cancellation)
    (a : Addr) (h : c.Carries before) (hfuel : c.core.children.keys.card < fuel) :
    (cancelAddressLocked live fuel c a).Carries before ∧
      (cancelAddressLocked live fuel c a).core.parents.lookup a = none := by
  induction fuel generalizing before c a with
  | zero => exact absurd hfuel (Nat.not_lt_zero _)
  | succ fuel ih =>
    rw [cancelAddressLocked_succ]
    obtain ⟨hcarries, hgone⟩ := cancelChildren_carries (fun c a => ih _ c a) (c.childrenOf a) _ (h.moveOut a) fun hne =>
      Nat.lt_of_lt_of_le (moveOut_card_lt hne) (Nat.le_of_lt_succ hfuel)
    exact (hcarries.settle hgone).forget live a

-- ---------------------------------------------------------------------------
-- Termination
-- ---------------------------------------------------------------------------

/-- The calls of `cancel_address_locked`, one after the other, as a finite tree: each
call moves the children out, cancels them in order and then forgets its address. -/
inductive Cancels (live : Nat → Bool) : Cancellation → List Addr → Cancellation → Prop
  | done (c : Cancellation) : Cancels live c [] c
  | call {c c₁ c₂ : Cancellation} {a : Addr} {rest : List Addr} :
      Cancels live (c.moveOut a) (c.childrenOf a) c₁ → Cancels live (c₁.forget live a) rest c₂ →
      Cancels live c (a :: rest) c₂

theorem Cancels.unique {live : Nat → Bool} {c c₁ c₂ : Cancellation} {addresses : List Addr}
    (h₁ : Cancels live c addresses c₁) (h₂ : Cancels live c addresses c₂) : c₁ = c₂ := by
  induction h₁ generalizing c₂ with
  | done c =>
    cases h₂
    rfl
  | call _ _ ihChildren ihRest =>
    cases h₂ with
    | call hchildren hrest =>
      obtain rfl := ihChildren hchildren
      exact ihRest hrest

/-- Whatever the tables hold, the calls come to an end: each one that has children to
cancel takes their entry away. -/
theorem cancels_of_fuel (live : Nat → Bool) (fuel : Nat) (addresses : List Addr) (c : Cancellation)
    (hfuel : addresses ≠ [] → c.core.children.keys.card < fuel) :
    Cancels live c addresses (addresses.foldl (cancelAddressLocked live fuel) c) := by
  induction fuel generalizing addresses c with
  | zero =>
    cases addresses with
    | nil => exact .done c
    | cons a rest => exact absurd (hfuel (List.cons_ne_nil _ _)) (Nat.not_lt_zero _)
  | succ fuel ih =>
    induction addresses generalizing c with
    | nil => exact .done c
    | cons a rest ihRest =>
      have hlt := hfuel (List.cons_ne_nil _ _)
      have hle := (cancelAddressLocked_smaller live (fuel + 1) c a).keys_card_le
      rw [List.foldl_cons]
      have hrest := ihRest (cancelAddressLocked live (fuel + 1) c a) fun _ => Nat.lt_of_le_of_lt hle hlt
      rw [cancelAddressLocked_succ] at hrest ⊢
      exact .call (ih _ _ fun hne => Nat.lt_of_lt_of_le (moveOut_card_lt hne) (Nat.le_of_lt_succ hlt)) hrest

-- ---------------------------------------------------------------------------
-- Runs
-- ---------------------------------------------------------------------------

instance (s : Core) (parent child : Addr) : Decidable (s.Link parent child) :=
  match h : s.children.lookup parent with
  | none => isFalse fun ⟨refs, hrefs, _⟩ => by rw [h] at hrefs; cases hrefs
  | some refs =>
    decidable_of_iff (∃ ref ∈ refs, ref.child = child)
      ⟨fun hmem => ⟨refs, h, hmem⟩, fun ⟨refs', hrefs, hmem⟩ => by rw [h] at hrefs; cases hrefs; exact hmem⟩

/-- The locked sections of the core. The flags of frames and tokens are those found at
the time. -/
inductive Operation
  | registerFrame (owner : Nat) (frame : Frame)
  | attachChild (child : Frame) (parent : Addr)
  | makeWaiter (frame : Frame) (token : Nat)
  | post (canceled : List Nat) (done : Bool) (frame : Frame)
  | block (address : Addr) (kind : SuspendKind) (reason : String) (loc : SourceLocation)
  | yield (canceled : List Nat) (done : Bool) (address : Addr) (loc : SourceLocation)
  | popReady (canceled : List Nat)
  | clearSuspendState (frame : Frame)
  | cancelAddress (live : Nat → Bool) (canceled : List Nat) (address : Addr)
  /-- The addresses whose owner fits, in the order the table gives them. -/
  | cancelMatching (live : Nat → Bool) (canceled : List Nat) (pred : Nat → Bool) (addresses : List Addr)

def Core.perform (s : Core) : Operation → Option Core
  | .registerFrame owner frame => some (s.registerFrame owner frame)
  | .attachChild child parent =>
    if s.Link parent child.address then none else some (s.attachChild child parent)
  | .makeWaiter frame token => some ((s.makeWaiter frame token).getD s)
  | .post canceled done frame => some (s.post canceled done frame).1
  | .block address kind reason loc => some (s.block address kind reason loc)
  | .yield canceled done address loc => some (s.yield canceled done address loc).1
  | .popReady canceled => some (s.popReady canceled).2
  | .clearSuspendState frame => some (s.clearSuspendState frame)
  | .cancelAddress live canceled address =>
    some (Gentest.Async.SchedulerCore.cancelAddress live ⟨s, canceled, []⟩ address).core
  | .cancelMatching live canceled pred addresses =>
    if addresses.Nodup ∧ addresses.toFinset = s.owners.keys.filter fun x => (s.owners.lookup x).any pred then
      some (cancelAddresses live ⟨s, canceled, []⟩ addresses).core
    else none

/-- Between two locked sections: the links agree and each parent link leads to a parent. -/
structure Settled (s : Core) : Prop where
  agree : Agree s.children s.view
  rest : ∀ c p, ¬Stale s.children s.view c p

theorem settled_empty : Settled {} := by
  have hchildren : ∀ p, ({} : Core).children.lookup p = none := fun p => Finmap.lookup_empty p
  have hview : ∀ c l, ({} : Core).view c l = none := by
    intro c l
    have hparents : ({} : Core).parents.lookup c = none := Finmap.lookup_empty c
    simp [Core.view, hparents]
  refine ⟨⟨?_, ?_, ?_, ?_⟩, ?_⟩
  · intro p refs i ref hrefs
    rw [hchildren] at hrefs
    cases hrefs
  · intro c l p i refs hlink
    rw [hview] at hlink
    cases hlink
  · intro p
    rw [hchildren]
    exact nofun
  · intro c l l' p i i' hlink
    rw [hview] at hlink
    cases hlink
  · rintro c p ⟨l, i, hlink, -⟩
    rw [hview] at hlink
    cases hlink

theorem Settled.of_same {s s' : Core} (h : Settled s) (hchildren : s'.children = s.children)
    (hparents : s'.parents = s.parents) : Settled s' := by
  have hview : s'.view = s.view := by
    unfold Core.view
    rw [hparents]
  exact ⟨by rw [hchildren, hview]; exact h.agree, by rw [hchildren, hview]; exact h.rest⟩

theorem Settled.cancelAddress {c : Cancellation} (h : Settled c.core) (live : Nat → Bool) (a : Addr) :
    Settled (cancelAddress live c a).core := by
  have hcarries : c.Carries fun _ _ => False := ⟨h.agree, h.rest⟩
  obtain ⟨⟨hagree, hstale⟩, -⟩ := cancelAddressLocked_carries live _ _ c a hcarries (Nat.lt_succ_self _)
  exact ⟨hagree, hstale⟩

theorem Settled.cancelAddresses {c : Cancellation} (h : Settled c.core) (live : Nat → Bool) (addresses : List Addr) :
    Settled (cancelAddresses live c addresses).core := by
  unfold SchedulerCore.cancelAddresses
  induction addresses generalizing c with
  | nil => exact h
  | cons a addresses ih => exact ih (h.cancelAddress live a)

theorem Settled.child_of_link {s : Core} (h : Settled s) {c p : Addr} {l i : Nat} (hlink : s.view c l = some ⟨p, i⟩) :
    ∃ refs, s.children.lookup p = some refs ∧ refs[i]? = some ⟨c, l⟩ := by
  cases hrefs : s.children.lookup p with
  | none => exact absurd ⟨l, i, hlink, hrefs⟩ (h.rest c p)
  | some refs => exact ⟨refs, rfl, h.agree.up c l p i refs hlink hrefs⟩

theorem attachChild_tables {s : Core} (child : Frame) {parent : Addr} {owner : Nat}
    (howner : s.ownerFor parent = some owner) :
    (∀ p, (s.attachChild child parent).children.lookup p =
      if p = parent then some ((s.children.lookup parent).getD [] ++
        [⟨child.address, ((s.parents.lookup child.address).getD []).length⟩])
      else s.children.lookup p) ∧
    ∀ c l, (s.attachChild child parent).view c l =
      if c = child.address ∧ l = ((s.parents.lookup child.address).getD []).length then
        some ⟨parent, ((s.children.lookup parent).getD []).length⟩
      else s.view c l := by
  refine ⟨fun p => ?_, fun c l => ?_⟩
  · simp only [Core.attachChild, howner]
    rw [lookup_insert_eq]
  · simp only [Core.view, Core.attachChild, howner]
    rw [lookup_insert_eq]
    by_cases hc : c = child.address
    · rw [if_pos hc, Option.getD_some, hc]
      by_cases hl : l = ((s.parents.lookup child.address).getD []).length
      · rw [if_pos ⟨rfl, hl⟩, hl, List.getElem?_concat_length]
      · rw [if_neg fun h => hl h.2]
        rcases Nat.lt_or_gt_of_ne hl with hlt | hgt
        · exact List.getElem?_append_left hlt
        · rw [List.getElem?_eq_none (by simp; omega), List.getElem?_eq_none hgt.le]
    · rw [if_neg hc, if_neg fun h => hc h.1]

theorem Settled.attachChild {s : Core} (h : Settled s) {child : Frame} {parent : Addr}
    (hnew : ¬s.Link parent child.address) : Settled (s.attachChild child parent) := by
  cases howner : s.ownerFor parent with
  | none =>
    have hsame : s.attachChild child parent = s := by simp [Core.attachChild, howner]
    rwa [hsame]
  | some owner =>
    obtain ⟨hchildren, hview⟩ := attachChild_tables child howner
    generalize hlinks : ((s.parents.lookup child.address).getD []).length = links at hchildren hview
    generalize hsiblings : (s.children.lookup parent).getD [] = siblings at hchildren hview
    have hfree : s.view child.address links = none := by
      rw [Core.view, ← hlinks, List.getElem?_eq_none le_rfl]
    have hunlinked : ∀ l i, s.view child.address l ≠ some ⟨parent, i⟩ := by
      intro l i hlink
      obtain ⟨refs, hrefs, hi⟩ := h.child_of_link hlink
      exact hnew ⟨refs, hrefs, _, List.mem_of_getElem? hi, rfl⟩
    have hold : ∀ c l q j, (s.attachChild child parent).view c l = some ⟨q, j⟩ →
        s.view c l = some ⟨q, j⟩ ∨ (c = child.address ∧ l = links) ∧ q = parent ∧ j = siblings.length := by
      intro c l q j hlink
      rw [hview] at hlink
      split at hlink
      · cases hlink
        exact .inr ⟨‹_›, rfl, rfl⟩
      · exact .inl hlink
    refine ⟨⟨?_, ?_, ?_, ?_⟩, ?_⟩
    · intro q refs i ref hrefs hi
      have hkept : ∀ refs, s.children.lookup q = some refs → refs[i]? = some ref →
          (s.attachChild child parent).view ref.child ref.parentLinkIndex = some ⟨q, i⟩ := by
        intro refs hrefs hi
        have hlink := h.agree.down q refs i ref hrefs hi
        rw [hview, if_neg]
        · exact hlink
        · rintro ⟨hchild, hindex⟩
          rw [hchild, hindex, hfree] at hlink
          cases hlink
      rw [hchildren] at hrefs
      by_cases hq : q = parent
      · subst hq
        rw [if_pos rfl] at hrefs
        cases hrefs
        by_cases hlt : i < siblings.length
        · rw [List.getElem?_append_left hlt] at hi
          cases hrefs : s.children.lookup q with
          | none => simp [← hsiblings, hrefs] at hlt
          | some refs =>
            rw [hrefs, Option.getD_some] at hsiblings
            exact hkept refs hrefs (hsiblings ▸ hi)
        · rw [List.getElem?_append_right (Nat.le_of_not_lt hlt), List.getElem?_singleton] at hi
          split at hi
          · cases hi
            have hi : i = siblings.length := by omega
            rw [hview, if_pos ⟨rfl, rfl⟩, hi]
          · cases hi
      · rw [if_neg hq] at hrefs
        exact hkept refs hrefs hi
    · intro c l q j refs hlink hrefs
      rw [hchildren] at hrefs
      rcases hold c l q j hlink with hlink | ⟨⟨rfl, rfl⟩, rfl, rfl⟩
      · obtain ⟨refs', hrefs', hj⟩ := h.child_of_link hlink
        by_cases hq : q = parent
        · subst hq
          rw [if_pos rfl] at hrefs
          cases hrefs
          rw [hrefs', Option.getD_some] at hsiblings
          subst hsiblings
          rw [List.getElem?_append_left (List.getElem?_eq_some_iff.mp hj).1, hj]
        · rw [if_neg hq, hrefs'] at hrefs
          cases hrefs
          exact hj
      · rw [if_pos rfl] at hrefs
        cases hrefs
        rw [List.getElem?_concat_length]
    · intro q
      rw [hchildren]
      split
      · simp
      · exact h.agree.nonempty q
    · intro c l l' q i i' hlink hlink'
      rcases hold c l q i hlink with hfirst | ⟨⟨rfl, rfl⟩, rfl, rfl⟩
      · rcases hold c l' q i' hlink' with hsecond | ⟨⟨rfl, rfl⟩, rfl, rfl⟩
        · exact h.agree.distinct c l l' q i i' hfirst hsecond
        · exact absurd hfirst (hunlinked _ _)
      · rcases hold child.address l' q i' hlink' with hsecond | ⟨⟨-, rfl⟩, -, -⟩
        · exact absurd hsecond (hunlinked _ _)
        · rfl
    · rintro c q ⟨l, j, hlink, hnone⟩
      rw [hchildren] at hnone
      split at hnone
      · cases hnone
      · rcases hold c l q j hlink with hlink | ⟨-, rfl, -⟩
        · exact h.rest c q ⟨l, j, hlink, hnone⟩
        · exact absurd rfl ‹¬_›

theorem Settled.perform {s s' : Core} {o : Operation} (h : Settled s) (hstep : s.perform o = some s') : Settled s' := by
  cases o with
  | registerFrame owner frame =>
    obtain rfl := Option.some.inj hstep
    exact h.of_same rfl rfl
  | attachChild child parent =>
    simp only [Core.perform] at hstep
    split at hstep
    · cases hstep
    · obtain rfl := Option.some.inj hstep
      exact h.attachChild ‹_›
  | makeWaiter frame token =>
    obtain rfl := Option.some.inj hstep
    unfold Core.makeWaiter
    split
    · exact h
    · exact h.of_same rfl rfl
  | post canceled done frame =>
    obtain rfl := Option.some.inj hstep
    simp only [Core.post]
    split
    · exact h.of_same rfl rfl
    · split <;> exact h.of_same rfl rfl
  | block address kind reason loc =>
    obtain rfl := Option.some.inj hstep
    unfold Core.block
    split
    · exact h
    · exact h.of_same rfl rfl
  | yield canceled done address loc =>
    obtain rfl := Option.some.inj hstep
    unfold Core.yield
    split
    · split
      · exact h
      · exact h.of_same rfl rfl
    · exact h
  | popReady canceled =>
    obtain rfl := Option.some.inj hstep
    exact h.of_same rfl rfl
  | clearSuspendState frame =>
    obtain rfl := Option.some.inj hstep
    exact h.of_same rfl rfl
  | cancelAddress live canceled address =>
    obtain rfl := Option.some.inj hstep
    exact Settled.cancelAddress (c := ⟨s, canceled, []⟩) h live address
  | cancelMatching live canceled pred addresses =>
    simp only [Core.perform] at hstep
    split at hstep
    · obtain rfl := Option.some.inj hstep
      exact Settled.cancelAddresses (c := ⟨s, canceled, []⟩) h live addresses
    · cases hstep

structure LinkInvariant (s : Core) : Prop where
  down : ∀ (p : Addr) (refs : List ChildReference) (i : Nat) (c : Addr) (l : Nat), s.children.lookup p = some refs →
    refs[i]? = some ⟨c, l⟩ → ∃ links, s.parents.lookup c = some links ∧ links[l]? = some ⟨p, i⟩
  up : ∀ (c : Addr) (links : List ParentReference) (l : Nat) (p : Addr) (i : Nat) (refs : List ChildReference),
    s.parents.lookup c = some links → links[l]? = some ⟨p, i⟩ → s.children.lookup p = some refs →
      refs[i]? = some ⟨c, l⟩
  nonempty : ∀ p, s.children.lookup p ≠ some []

theorem Settled.linkInvariant {s : Core} (h : Settled s) : LinkInvariant s where
  down p refs i c l hrefs hi := by
    have hlink := h.agree.down p refs i ⟨c, l⟩ hrefs hi
    rw [Core.view] at hlink
    cases hlinks : s.parents.lookup c with
    | none => simp [hlinks] at hlink
    | some links => exact ⟨links, rfl, by simpa [hlinks] using hlink⟩
  up c links l p i refs hlinks hl hrefs :=
    h.agree.up c l p i refs (by rw [Core.view, hlinks, Option.getD_some, hl]) hrefs
  nonempty := h.agree.nonempty

/-- In every run the links agree, and a cancellation ends on every core, whatever its
links: the calls are a finite tree, whose result is that of the fuelled recursion. -/
theorem links_agree_and_cancellation_ends :
    (∀ operations s, run Core.perform {} operations = some s → LinkInvariant s) ∧
    ∀ live c address, Cancels live c [address] (cancelAddress live c address) ∧
      ∀ c', Cancels live c [address] c' → c' = cancelAddress live c address := by
  refine ⟨?_, ?_⟩
  · intro operations s hrun
    have hsettled : Settled s :=
      run_invariant (fun s o s' h hstep => Settled.perform h hstep) settled_empty hrun
    exact hsettled.linkInvariant
  · intro live c address
    have hends : Cancels live c [address] (cancelAddress live c address) :=
      cancels_of_fuel live _ [address] c fun _ => Nat.lt_succ_self _
    exact ⟨hends, fun c' h => h.unique hends⟩

/-- A frame that awaits itself through another: the links form a cycle, and cancelling
one of the two leaves no link. -/
example :
    let s := (({} : Core).registerFrame 0 ⟨0, 0⟩)
    (run Core.perform s [.attachChild ⟨1, 1⟩ 0, .attachChild ⟨0, 0⟩ 1, .cancelAddress (fun _ => true) [] 0]).map
      (fun s => (s.children, s.parents)) = some (∅, ∅) := by
  decide +kernel

end Gentest.Async.SchedulerCore
