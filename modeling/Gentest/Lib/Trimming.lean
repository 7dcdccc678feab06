import Mathlib.Data.List.DropRight

/-!
# Trimming

A list without the letters of a kind at its ends.
-/

namespace Trimming

variable {α : Type*} {p : α → Bool} {x y : List α} {a : α}

def trim (p : α → Bool) (x : List α) : List α := (x.dropWhile p).rdropWhile p

theorem rdropWhile_append (p : α → Bool) (x y : List α) :
    (x ++ y).rdropWhile p = if y.rdropWhile p = [] then x.rdropWhile p else x ++ y.rdropWhile p := by
  simp only [List.rdropWhile, List.reverse_append, List.dropWhile_append, List.reverse_eq_nil_iff, List.isEmpty_iff]
  split
  · rfl
  · rw [List.reverse_append, List.reverse_reverse]

theorem rdropWhile_append_cons (h : p a = false) (x y : List α) :
    (x ++ a :: y).rdropWhile p = x ++ a :: y.rdropWhile p := by
  have hstop : (a :: y).rdropWhile p = a :: y.rdropWhile p := by
    rw [← List.singleton_append, rdropWhile_append]
    split
    · rename_i hy
      rw [hy, List.rdropWhile_singleton, h]
      rfl
    · rfl
  rw [rdropWhile_append, hstop, if_neg (List.cons_ne_nil _ _)]

theorem dropWhile_append_cons (h : p a = false) (x y : List α) :
    (x ++ a :: y).dropWhile p = x.dropWhile p ++ a :: y := by
  rw [List.dropWhile_append]
  split
  · rename_i hx
    rw [List.isEmpty_iff.mp hx, List.dropWhile_cons_of_neg (by simp [h]), List.nil_append]
  · rfl

theorem exists_rdropWhile (p : α → Bool) (x : List α) :
    ∃ dropped, x = x.rdropWhile p ++ dropped ∧ ∀ a ∈ dropped, p a = true :=
  ⟨x.rtakeWhile p, List.rdropWhile_append_rtakeWhile.symm, fun _ => List.mem_rtakeWhile_imp⟩

theorem rdropWhile_all (x : List α) (h : ∀ a ∈ y, p a = true) : (x ++ y).rdropWhile p = x.rdropWhile p := by
  rw [rdropWhile_append, if_pos (List.rdropWhile_eq_nil_iff.mpr h)]

theorem dropWhile_all (h : ∀ a ∈ x, p a = true) (y : List α) : (x ++ y).dropWhile p = y.dropWhile p := by
  rw [List.dropWhile_append, List.dropWhile_eq_nil_iff.mpr h]
  rfl

theorem trim_all_left (h : ∀ a ∈ x, p a = true) (y : List α) : trim p (x ++ y) = trim p y := by
  rw [trim, dropWhile_all h, trim]

theorem trim_all_right (x : List α) (h : ∀ a ∈ y, p a = true) : trim p (x ++ y) = trim p x := by
  rw [trim, trim, List.dropWhile_append]
  split
  · rename_i hx
    rw [List.isEmpty_iff.mp hx, List.dropWhile_eq_nil_iff.mpr h]
  · exact rdropWhile_all _ h

theorem trim_rdropWhile (x : List α) : trim p (x.rdropWhile p) = trim p x := by
  obtain ⟨dropped, hx, hdropped⟩ := exists_rdropWhile p x
  conv_rhs => rw [hx, trim_all_right _ hdropped]

theorem trim_dropWhile (x : List α) : trim p (x.dropWhile p) = trim p x := by
  rw [trim, List.dropWhile_idempotent, trim]

theorem trim_trim (x : List α) : trim p (trim p x) = trim p x :=
  (trim_rdropWhile (x.dropWhile p)).trans (trim_dropWhile x)

theorem not_of_mem_head?_trim (x : List α) : ∀ a ∈ (trim p x).head?, p a = false := by
  obtain ⟨dropped, hx, -⟩ := exists_rdropWhile p (x.dropWhile p)
  have hhead := List.head?_dropWhile_not p x
  intro a ha
  rw [hx, List.head?_append, ← trim, Option.mem_def.mp ha] at hhead
  simpa using hhead

theorem trim_of_not (h : ∀ a ∈ x, p a = false) : trim p x = x := by
  have hfront : x.dropWhile p = x := by
    cases x with
    | nil => rfl
    | cons b x => exact List.dropWhile_cons_of_neg (by simp [h b List.mem_cons_self])
  rw [trim, hfront, List.rdropWhile_eq_self_iff]
  exact fun hne => by simp [h _ (List.getLast_mem hne)]

theorem exists_trim (p : α → Bool) (x : List α) :
    ∃ front back, x = front ++ trim p x ++ back ∧ (∀ a ∈ front, p a = true) ∧ ∀ a ∈ back, p a = true := by
  obtain ⟨back, hback, hdropped⟩ := exists_rdropWhile p (x.dropWhile p)
  refine ⟨x.takeWhile p, back, ?_, fun _ => List.mem_takeWhile_imp, hdropped⟩
  rw [List.append_assoc, trim, ← hback, List.takeWhile_append_dropWhile]

theorem mem_of_mem_trim (h : a ∈ trim p x) : a ∈ x := by
  obtain ⟨dropped, hx, -⟩ := exists_rdropWhile p (x.dropWhile p)
  refine (List.dropWhile_suffix p).mem ?_
  rw [hx]
  exact List.mem_append_left _ h

end Trimming
