import Mathlib.Data.List.Sort
import Mathlib.Data.List.Dedup

/-!
# Sorting and ordered maps

A sort that leaves open where equal elements go, the entries of an ordered map
that each value is appended to under its key, and the first of a list of
candidates under an order.
-/

namespace Sorting

-- ---------------------------------------------------------------------------
-- Sorts
-- ---------------------------------------------------------------------------

structure UnstableSort where
  sort : {α : Type} → (α → α → Bool) → List α → List α
  perm : ∀ {α : Type} (less : α → α → Bool) (l : List α), (sort less l).Perm l
  sorted : ∀ {α : Type} (less : α → α → Bool) (l : List α),
    (∀ a b c, less b a = false → less c b = false → less c a = false) →
    (∀ a b, less a b = false ∨ less b a = false) →
      (sort less l).Pairwise fun a b => less b a = false

def insertion : UnstableSort where
  sort less := List.insertionSort fun a b => less b a = false
  perm less l := List.perm_insertionSort _ l
  sorted less l htrans htotal := by
    have : Std.Total fun a b => less b a = false := ⟨fun a b => htotal b a⟩
    have : IsTrans _ fun a b => less b a = false := ⟨fun a b c hab hbc => htrans a b c hab hbc⟩
    exact List.pairwise_insertionSort _ l

variable {α κ : Type} {less : α → α → Bool} {l : List α} {a : α}

theorem UnstableSort.mem_sort (std : UnstableSort) : a ∈ std.sort less l ↔ a ∈ l :=
  (std.perm less l).mem_iff

def unique [DecidableEq α] : List α → List α
  | a :: b :: l => if a = b then unique (b :: l) else a :: unique (b :: l)
  | l => l

theorem mem_unique [DecidableEq α] : a ∈ unique l ↔ a ∈ l := by
  fun_induction unique l with
  | case1 b l ih => rw [ih, List.mem_cons, List.mem_cons, List.mem_cons, ← or_assoc, or_self]
  | case2 b c l hne ih => rw [List.mem_cons, ih, ← List.mem_cons]
  | case3 l hne => rfl

-- ---------------------------------------------------------------------------
-- Sorting by two orders
-- ---------------------------------------------------------------------------

section

variable {r s : α → α → Prop} [DecidableRel r] [DecidableRel s]

theorem orderedInsert_eq (h : ∀ b ∈ l, r a b ↔ s a b) :
    l.orderedInsert r a = l.orderedInsert s a := by
  induction l with
  | nil => rfl
  | cons b l ih =>
    have hhead := h b List.mem_cons_self
    have htail := ih fun c hc => h c (List.mem_cons_of_mem b hc)
    by_cases hr : r a b
    · simp [List.orderedInsert, hr, hhead.mp hr]
    · have hs : ¬s a b := fun hs => hr (hhead.mpr hs)
      simp [List.orderedInsert, hr, hs, htail]

theorem insertionSort_eq (h : l.Pairwise fun a b => r a b ↔ s a b) :
    l.insertionSort r = l.insertionSort s := by
  induction h with
  | nil => rfl
  | cons hhead _ ih =>
    simp only [List.insertionSort_cons, ih]
    exact orderedInsert_eq fun b hb => hhead b ((List.mem_insertionSort s).mp hb)

end

-- ---------------------------------------------------------------------------
-- Ordered maps
-- ---------------------------------------------------------------------------

variable [LinearOrder κ] {key : α → κ}

/-- The entries of a map from keys to lists, by key, once each value is appended
to the list of its key. -/
def byKey (key : α → κ) (l : List α) : List (κ × List α) :=
  ((l.map key).dedup.insertionSort (· ≤ ·)).map fun k => (k, l.filter fun a => key a = k)

theorem mem_byKey {group : κ × List α} :
    group ∈ byKey key l ↔ ∃ a ∈ l, group = (key a, l.filter fun b => key b = key a) := by
  simp only [byKey, List.mem_map, List.mem_insertionSort, List.mem_dedup]
  constructor
  · rintro ⟨_, ⟨a, ha, rfl⟩, rfl⟩
    exact ⟨a, ha, rfl⟩
  · rintro ⟨a, ha, rfl⟩
    exact ⟨key a, ⟨a, ha, rfl⟩, rfl⟩

theorem byKey_keys_nodup : ((byKey key l).map Prod.fst).Nodup := by
  have hkeys : (byKey key l).map Prod.fst = (l.map key).dedup.insertionSort (· ≤ ·) := by
    simp [byKey, Function.comp_def]
  rw [hkeys]
  exact (List.perm_insertionSort _ _).nodup_iff.mpr (List.nodup_dedup _)

-- ---------------------------------------------------------------------------
-- The least of a list
-- ---------------------------------------------------------------------------

/-- The first candidate that none is less than, as a scan finds it. -/
def least (less : α → α → Bool) (l : List α) : Option α :=
  l.foldl (fun best a =>
    match best with
    | none => some a
    | some b => if less a b then some a else some b) none

theorem least_mem (h : least less l = some a) : a ∈ l := by
  have hscan : ∀ (l : List α) best, l.foldl (fun best a =>
      match best with
      | none => some a
      | some b => if less a b then some a else some b) best = some a → a ∈ l ∨ best = some a := by
    intro l
    induction l with
    | nil => exact fun _ h => .inr h
    | cons c l ih =>
      intro best h
      rcases ih _ h with hmem | hbest
      · exact .inl (List.mem_cons_of_mem _ hmem)
      · cases best with
        | none =>
          cases hbest
          exact .inl List.mem_cons_self
        | some b =>
          dsimp only at hbest
          split at hbest
          · cases hbest
            exact .inl List.mem_cons_self
          · exact .inr hbest
  rcases hscan l none h with hmem | hnone
  · exact hmem
  · cases hnone

theorem exists_least (less : α → α → Bool) (h : l ≠ []) : ∃ a, least less l = some a := by
  have hscan : ∀ (l : List α) b, ∃ a, l.foldl (fun best a =>
      match best with
      | none => some a
      | some b => if less a b then some a else some b) (some b) = some a := by
    intro l
    induction l with
    | nil => exact fun b => ⟨b, rfl⟩
    | cons c l ih =>
      intro b
      rw [List.foldl_cons]
      dsimp only
      split
      · exact ih c
      · exact ih b
  cases l with
  | nil => exact absurd rfl h
  | cons b l => exact hscan l b

end Sorting
