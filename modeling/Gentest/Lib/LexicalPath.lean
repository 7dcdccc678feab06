import Mathlib.Data.List.Basic
import Mathlib.Data.List.Infix
import Mathlib.Tactic.TypeStar

/-!
# Paths as names

An absolute path without `.` and `..` is the list of its names from the root. A relative
path is a list of steps that are walked from a directory; walking up at the root stays
there. Nothing here asks a file system.
-/

namespace LexicalPath

inductive Step (α : Type*)
  | name (a : α)
  | up
  | here
  deriving DecidableEq

variable {α : Type*}

def Step.walk (path : List α) : Step α → List α
  | .name a => path ++ [a]
  | .up => path.dropLast
  | .here => path

def walk (path : List α) (steps : List (Step α)) : List α := steps.foldl Step.walk path

variable [DecidableEq α] {path base : List α}

def common : List α → List α → Nat
  | a :: path, b :: base => if a = b then common path base + 1 else 0
  | _, _ => 0

/-- The steps from `base` to `path`. -/
def relative (path base : List α) : List (Step α) :=
  if path = base then [.here]
  else List.replicate (base.length - common path base) .up ++ (path.drop (common path base)).map .name

attribute [local grind =] walk common

omit [DecidableEq α] in
theorem walk_append (path : List α) (first second : List (Step α)) :
    walk path (first ++ second) = walk (walk path first) second :=
  List.foldl_append

omit [DecidableEq α] in
theorem walk_up (path : List α) (k : Nat) : walk path (List.replicate k .up) = path.take (path.length - k) := by
  induction k generalizing path with
  | zero => simp [walk]
  | succ k ih =>
    rw [List.replicate_succ]
    change walk path.dropLast (List.replicate k .up) = _
    rw [ih, List.length_dropLast, List.dropLast_eq_take, List.take_take]
    congr 1
    omega

omit [DecidableEq α] in
theorem walk_names (path names : List α) : walk path (names.map .name) = path ++ names := by
  induction names generalizing path with
  | nil => simp [walk]
  | cons a names ih =>
    change walk (path ++ [a]) (names.map .name) = _
    rw [ih, List.append_assoc, List.singleton_append]

theorem common_le_right (path base : List α) : common path base ≤ base.length := by
  induction path generalizing base with
  | nil => simp [common]
  | cons a path ih =>
    cases base with
    | nil => simp [common]
    | cons b base =>
      rw [common]
      split
      · exact Nat.succ_le_succ (ih base)
      · exact Nat.zero_le _

theorem take_common (path base : List α) : path.take (common path base) = base.take (common path base) := by
  induction path generalizing base with
  | nil => simp [common]
  | cons a path ih =>
    cases base with
    | nil => simp [common]
    | cons b base =>
      rw [common]
      split
      · rename_i heq
        rw [List.take_succ_cons, List.take_succ_cons, heq, ih]
      · rfl

theorem common_self (path : List α) : common path path = path.length := by
  induction path with
  | nil => rfl
  | cons a path ih => rw [common, if_pos rfl, ih, List.length_cons]

theorem common_append (front path base : List α) :
    common (front ++ path) (front ++ base) = front.length + common path base := by
  induction front with
  | nil => simp
  | cons a front ih =>
    rw [List.cons_append, List.cons_append, common, if_pos rfl, ih, List.length_cons]
    omega

theorem common_append_of_diverging (h : ¬base <+: path) (more : List α) :
    common path (base ++ more) = common path base := by
  induction path generalizing base with
  | nil =>
    cases base with
    | nil => exact absurd List.nil_prefix h
    | cons b base => rfl
  | cons a path ih =>
    cases base with
    | nil => exact absurd List.nil_prefix h
    | cons b base =>
      rw [List.cons_append, common, common]
      split
      · rename_i heq
        rw [ih fun hstarts => h (by rw [heq]; exact List.cons_prefix_cons.mpr ⟨rfl, hstarts⟩)]
      · rfl

theorem common_lt_of_not_prefix (h : ¬base <+: path) : common path base < base.length := by
  refine Nat.lt_of_le_of_ne (common_le_right path base) fun heq => h ?_
  have htake := take_common path base
  rw [heq, List.take_length] at htake
  exact List.prefix_iff_eq_take.mpr htake.symm

theorem relative_ne_nil (path base : List α) : relative path base ≠ [] := by
  rw [relative]
  split
  · exact List.cons_ne_nil _ _
  · rename_i hne
    intro hnil
    rw [List.append_eq_nil_iff, List.replicate_eq_nil_iff, List.map_eq_nil_iff, List.drop_eq_nil_iff] at hnil
    have htake := take_common path base
    rw [List.take_of_length_le hnil.2, List.take_of_length_le (by omega)] at htake
    exact hne htake

/-- The path ends in no name of its own where it lies above the other one. -/
theorem drop_common_eq_nil_iff : path.drop (common path base) = [] ↔ path <+: base := by
  rw [List.drop_eq_nil_iff]
  constructor
  · intro hle
    have htake := take_common path base
    rw [List.take_of_length_le hle] at htake
    exact htake ▸ List.take_prefix _ _
  · rintro ⟨more, rfl⟩
    have hcommon := common_append path [] more
    rw [List.append_nil] at hcommon
    omega

/-- Walking from another directory goes as far up, and down the same names. -/
theorem walk_relative (from_ path base : List α) :
    walk from_ (relative path base) =
      from_.take (from_.length - (base.length - common path base)) ++ path.drop (common path base) := by
  rw [relative]
  split
  · rename_i heq
    rw [heq, common_self]
    simp [walk, Step.walk]
  · rw [walk_append, walk_up, walk_names]

end LexicalPath
