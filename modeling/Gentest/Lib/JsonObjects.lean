import Gentest.Lib.Json
import Mathlib.Data.Char
import Mathlib.Data.List.Lex
import Mathlib.Data.List.Sort

/-!
# Members of JSON objects

A library for JSON keeps the members of an object under their names, not in an order. Two
values that differ only in the order of members are the same: they have one canonical form,
in which each object is sorted by its names. Members of one name keep their order, so that
the last of them is the same in both.
-/

namespace Json

variable {key : List Char} {members members' : List (List Char × Json)} {elements : List Json} {j : Json}

/-- The member of a name; of several, the one given last. -/
def get (members : List (List Char × Json)) (key : List Char) : Option Json :=
  (members.reverse.find? (·.1 = key)).map Prod.snd

def sortMembers (members : List (List Char × Json)) : List (List Char × Json) :=
  members.insertionSort fun m m' => m.1 ≤ m'.1

mutual

def canonical : Json → Json
  | .arr elements => .arr (canonicalElements elements)
  | .obj members => .obj (sortMembers (canonicalMembers members))
  | .null => .null
  | .bool b => .bool b
  | .num text => .num text
  | .str s => .str s

def canonicalElements : List Json → List Json
  | [] => []
  | j :: js => canonical j :: canonicalElements js

def canonicalMembers : List (List Char × Json) → List (List Char × Json)
  | [] => []
  | (key, j) :: members => (key, canonical j) :: canonicalMembers members

end

theorem canonicalElements_eq (elements : List Json) : canonicalElements elements = elements.map canonical := by
  induction elements with
  | nil => rfl
  | cons j elements ih => rw [canonicalElements, ih, List.map_cons]

theorem canonicalMembers_eq (members : List (List Char × Json)) :
    canonicalMembers members = members.map fun m => (m.1, canonical m.2) := by
  induction members with
  | nil => rfl
  | cons m members ih => rw [canonicalMembers, ih, List.map_cons]

-- ---------------------------------------------------------------------------
-- Looking up a member
-- ---------------------------------------------------------------------------

theorem get_eq_getLast? (members : List (List Char × Json)) (key : List Char) :
    get members key = ((members.filter (·.1 = key)).getLast?).map Prod.snd := by
  rw [get, ← List.head?_filter, List.filter_reverse, List.head?_reverse]

theorem filter_sortMembers (members : List (List Char × Json)) (key : List Char) :
    (sortMembers members).filter (·.1 = key) = members.filter (·.1 = key) := by
  have hinsert : ∀ (m : List Char × Json) (l : List (List Char × Json)),
      (l.orderedInsert (fun m m' => m.1 ≤ m'.1) m).filter (·.1 = key) = (m :: l).filter (·.1 = key) := by
    intro m l
    induction l with
    | nil => rfl
    | cons m' l ih =>
      rw [List.orderedInsert_cons]
      split
      · rfl
      · rename_i hle
        by_cases hm' : m'.1 = key
        · -- A member that is passed has another name.
          have hm : ¬ m.1 = key := fun hm => hle (le_of_eq (hm.trans hm'.symm))
          rw [List.filter_cons_of_pos (by simpa using hm'), ih, List.filter_cons_of_neg (by simpa using hm),
            List.filter_cons_of_neg (by simpa using hm), List.filter_cons_of_pos (by simpa using hm')]
        · rw [List.filter_cons_of_neg (by simpa using hm'), ih, List.filter_cons, List.filter_cons,
            List.filter_cons_of_neg (by simpa using hm')]
  induction members with
  | nil => rfl
  | cons m members ih =>
    have hcons : sortMembers (m :: members) = (sortMembers members).orderedInsert (fun m m' => m.1 ≤ m'.1) m := rfl
    rw [hcons, hinsert, List.filter_cons, List.filter_cons, ih]

theorem get_sortMembers (members : List (List Char × Json)) (key : List Char) :
    get (sortMembers members) key = get members key := by
  rw [get_eq_getLast?, get_eq_getLast?, filter_sortMembers]

theorem get_canonicalMembers (members : List (List Char × Json)) (key : List Char) :
    get (canonicalMembers members) key = (get members key).map canonical := by
  rw [canonicalMembers_eq, get, get, ← List.map_reverse, List.find?_map, Option.map_map, Option.map_map]
  rfl

/-- Objects that are the same have the same values under each name. -/
theorem get_of_canonical (h : canonical (.obj members) = canonical (.obj members')) (key : List Char) :
    (get members key).map canonical = (get members' key).map canonical := by
  rw [canonical, canonical, Json.obj.injEq] at h
  rw [← get_canonicalMembers, ← get_canonicalMembers, ← get_sortMembers, h, get_sortMembers]

-- ---------------------------------------------------------------------------
-- The canonical form of a canonical form
-- ---------------------------------------------------------------------------

theorem canonicalMembers_sortMembers (members : List (List Char × Json)) :
    canonicalMembers (sortMembers members) = sortMembers (canonicalMembers members) := by
  rw [canonicalMembers_eq, canonicalMembers_eq]
  exact List.map_insertionSort _ _ _ _ fun _ _ _ _ => Iff.rfl

theorem sortMembers_sortMembers (members : List (List Char × Json)) :
    sortMembers (sortMembers members) = sortMembers members := by
  have : Std.Total fun m m' : List Char × Json => m.1 ≤ m'.1 := ⟨fun m m' => le_total m.1 m'.1⟩
  have : IsTrans (List Char × Json) fun m m' => m.1 ≤ m'.1 := ⟨fun _ _ _ => le_trans⟩
  exact (List.pairwise_insertionSort _ members).insertionSort_eq

mutual

theorem canonical_canonical : ∀ j : Json, canonical (canonical j) = canonical j
  | .null | .bool _ | .num _ | .str _ => rfl
  | .arr elements => by rw [canonical, canonical, canonicalElements_canonicalElements elements]
  | .obj members => by
    rw [canonical, canonical, canonicalMembers_sortMembers, canonicalMembers_canonicalMembers members,
      sortMembers_sortMembers]

theorem canonicalElements_canonicalElements : ∀ elements : List Json,
    canonicalElements (canonicalElements elements) = canonicalElements elements
  | [] => rfl
  | j :: elements => by
    rw [canonicalElements, canonicalElements, canonical_canonical j, canonicalElements_canonicalElements elements]

theorem canonicalMembers_canonicalMembers : ∀ members : List (List Char × Json),
    canonicalMembers (canonicalMembers members) = canonicalMembers members
  | [] => rfl
  | (key, j) :: members => by
    rw [canonicalMembers, canonicalMembers, canonical_canonical j, canonicalMembers_canonicalMembers members]

end

-- ---------------------------------------------------------------------------
-- Values that are the same as one of a kind
-- ---------------------------------------------------------------------------

theorem eq_str_of_canonical {s : List Char} (h : canonical j = canonical (.str s)) : j = .str s := by
  cases j <;> simp [canonical] at h ⊢
  exact h

theorem eq_bool_of_canonical {b : Bool} (h : canonical j = canonical (.bool b)) : j = .bool b := by
  cases j <;> simp [canonical] at h ⊢
  exact h

theorem eq_num_of_canonical {text : List Char} (h : canonical j = canonical (.num text)) : j = .num text := by
  cases j <;> simp [canonical] at h ⊢
  exact h

theorem eq_arr_of_canonical (h : canonical j = canonical (.arr elements)) :
    ∃ elements', j = .arr elements' ∧ elements'.map canonical = elements.map canonical := by
  cases j with
  | arr elements' =>
    rw [canonical, canonical, Json.arr.injEq, canonicalElements_eq, canonicalElements_eq] at h
    exact ⟨elements', rfl, h⟩
  | _ => simp [canonical] at h

theorem eq_obj_of_canonical (h : canonical j = canonical (.obj members)) : ∃ members', j = .obj members' := by
  cases j with
  | obj members' => exact ⟨members', rfl⟩
  | _ => simp [canonical] at h

end Json
