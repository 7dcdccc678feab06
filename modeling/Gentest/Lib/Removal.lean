import Mathlib.Data.Finmap
import Mathlib.Logic.Relation
import Mathlib.Data.Set.Lattice

/-!
# Removing what a traversal reaches

Finite maps with a set of keys removed, and how the set a relation reaches
splits when a traversal removes nodes while it goes: first the root's own
edges, then what each successor reaches in what is left.
-/

namespace Removal

section Maps
variable {κ : Type*} [DecidableEq κ] {β : Type*} {m m' m'' : Finmap fun _ : κ => β} {R S : Set κ}

theorem lookup_insert_eq (m : Finmap fun _ : κ => β) (a : κ) (b : β) (x : κ) :
    (m.insert a b).lookup x = if x = a then some b else m.lookup x := by
  by_cases h : x = a
  · subst h; simp
  · rw [Finmap.lookup_insert_of_ne _ h, if_neg h]

theorem lookup_erase_eq (m : Finmap fun _ : κ => β) (a x : κ) :
    (m.erase a).lookup x = if x = a then none else m.lookup x := by
  by_cases h : x = a
  · subst h; simp
  · rw [Finmap.lookup_erase_ne h, if_neg h]

/-- `m'` is `m` with the keys in `R` removed. -/
structure Without (R : Set κ) (m m' : Finmap fun _ : κ => β) : Prop where
  gone : ∀ x ∈ R, m'.lookup x = none
  kept : ∀ x, x ∉ R → m'.lookup x = m.lookup x

theorem Without.refl (m : Finmap fun _ : κ => β) : Without ∅ m m := ⟨by simp, fun _ _ => rfl⟩

theorem Without.trans (h : Without R m m') (h' : Without S m' m'') : Without (R ∪ S) m m'' where
  gone x hx := by
    by_cases hS : x ∈ S
    · exact h'.gone x hS
    · rw [h'.kept x hS]
      exact h.gone x (hx.resolve_right hS)
  kept x hx := by
    rw [Set.mem_union, not_or] at hx
    rw [h'.kept x hx.2, h.kept x hx.1]

theorem Without.erase (m : Finmap fun _ : κ => β) (a : κ) : Without {a} m (m.erase a) where
  gone x hx := by
    obtain rfl : x = a := hx
    exact Finmap.lookup_erase x m
  kept x hx := Finmap.lookup_erase_ne hx

theorem Without.lookup_le (h : Without R m m') {b : β} (hx : m'.lookup x = some b) :
    x ∉ R ∧ m.lookup x = some b := by
  by_cases hR : x ∈ R
  · rw [h.gone x hR] at hx
    cases hx
  · exact ⟨hR, (h.kept x hR).symm.trans hx⟩

theorem Without.keys_card_le (h : Without R m m') : m'.keys.card ≤ m.keys.card := by
  refine Finset.card_le_card fun x hx => ?_
  rw [Finmap.mem_keys, Finmap.mem_iff] at hx ⊢
  obtain ⟨b, hb⟩ := hx
  exact ⟨b, (h.lookup_le hb).2⟩

theorem keys_card_erase_lt {b : β} (h : m.lookup a = some b) : (m.erase a).keys.card < m.keys.card := by
  rw [Finmap.keys_erase]
  exact Finset.card_erase_lt_of_mem (Finmap.mem_keys.mpr (Finmap.mem_of_lookup_eq_some h))

end Maps

section Reach
variable {α : Type*} {r r' : α → α → Prop} {S : Set α}

def reach (r : α → α → Prop) (a : α) : Set α := Relation.ReflTransGen r a

def reachAll (r : α → α → Prop) (roots : List α) : Set α := fun x => ∃ a ∈ roots, x ∈ reach r a

theorem mem_reach_self (r : α → α → Prop) (a : α) : a ∈ reach r a := Relation.ReflTransGen.refl

theorem reach_closed (hx : x ∈ reach r a) (h : r x y) : y ∈ reach r a := Relation.ReflTransGen.tail hx h

theorem reach_mono (h : ∀ x y, r' x y → r x y) : reach r' a ⊆ reach r a :=
  fun x hx => Relation.ReflTransGen.mono h a x hx

@[simp] theorem reachAll_nil (r : α → α → Prop) : reachAll r [] = ∅ := by
  ext x
  constructor
  · rintro ⟨a, h, -⟩
    cases h
  · exact False.elim

theorem reachAll_cons (r : α → α → Prop) (a : α) (as : List α) :
    reachAll r (a :: as) = reach r a ∪ reachAll r as := by
  ext x
  constructor
  · rintro ⟨b, hb, hx⟩
    rcases List.mem_cons.mp hb with rfl | hb
    · exact .inl hx
    · exact .inr ⟨b, hb, hx⟩
  · rintro (hx | ⟨b, hb, hx⟩)
    · exact ⟨a, List.mem_cons_self, hx⟩
    · exact ⟨b, List.mem_cons_of_mem _ hb, hx⟩

/-- Once a closed set is removed, the rest is reached as before. -/
theorem union_reach_of_closed (hclosed : ∀ x y, x ∈ S → r x y → y ∈ S)
    (hiff : ∀ x y, r' x y ↔ r x y ∧ x ∉ S) (a : α) : S ∪ reach r' a = S ∪ reach r a := by
  apply Set.Subset.antisymm
  · exact Set.union_subset_union_right S (reach_mono fun x y h => ((hiff x y).mp h).1)
  · refine Set.union_subset Set.subset_union_left fun x hx => ?_
    induction hx with
    | refl => exact .inr (mem_reach_self r' a)
    | @tail y z _ hedge ih =>
      by_cases hy : y ∈ S
      · exact .inl (hclosed y z hy hedge)
      · exact .inr (reach_closed (ih.resolve_left hy) ((hiff y z).mpr ⟨hedge, hy⟩))

theorem union_reachAll_of_closed (hclosed : ∀ x y, x ∈ S → r x y → y ∈ S)
    (hiff : ∀ x y, r' x y ↔ r x y ∧ x ∉ S) (as : List α) :
    S ∪ reachAll r' as = S ∪ reachAll r as := by
  induction as with
  | nil => simp
  | cons a as ih =>
    have ha := union_reach_of_closed hclosed hiff a
    calc S ∪ reachAll r' (a :: as)
        = (S ∪ reach r' a) ∪ (S ∪ reachAll r' as) := by
          rw [reachAll_cons, Set.union_union_distrib_left]
      _ = (S ∪ reach r a) ∪ (S ∪ reachAll r as) := by rw [ha, ih]
      _ = S ∪ reachAll r (a :: as) := by
          rw [reachAll_cons]
          exact (Set.union_union_distrib_left _ _ _).symm

/-- What a root reaches: itself, and what its successors reach without it. -/
theorem reach_eq_insert (hiff : ∀ x y, r' x y ↔ r x y ∧ x ≠ a)
    (hroots : ∀ c, c ∈ roots ↔ r a c) : reach r a = reachAll r' roots ∪ {a} := by
  apply Set.Subset.antisymm
  · intro x hx
    induction hx with
    | refl => exact .inr rfl
    | @tail y z _ hedge ih =>
      left
      by_cases hy : y = a
      · subst hy
        exact ⟨z, (hroots z).mpr hedge, mem_reach_self r' z⟩
      · obtain ⟨c, hc, hcy⟩ := ih.resolve_right hy
        exact ⟨c, hc, reach_closed hcy ((hiff y z).mpr ⟨hedge, hy⟩)⟩
  · rintro x (⟨c, hc, hx⟩ | rfl)
    · exact Relation.ReflTransGen.head ((hroots c).mp hc) (reach_mono (fun y z h => ((hiff y z).mp h).1) hx)
    · exact mem_reach_self r x

end Reach

end Removal
