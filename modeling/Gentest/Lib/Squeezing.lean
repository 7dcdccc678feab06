import Gentest.Lib.Trimming

/-!
# Squeezing

Each run of blank letters between others becomes one filler, and the blank letters at the
ends go. `squeeze` reads from the left with what it has put out and whether a filler is
due; what it makes of a text that follows another letter is `glue`.
-/

namespace Squeezing

variable {α : Type*} (blank : α → Bool) (filler : α)

def step (s : List α × Bool) (a : α) : List α × Bool :=
  if blank a then (s.1, !s.1.isEmpty)
  else ((if s.2 && !s.1.isEmpty then s.1 ++ [filler] else s.1) ++ [a], false)

/-- What is put out, and whether a filler is due. -/
def run (s : List α × Bool) (x : List α) : List α × Bool := x.foldl (step blank filler) s

def squeeze (x : List α) : List α := (run blank filler ([], false) x).1

/-- A filler is due now, unless nothing is put out. -/
def due (s : List α × Bool) : List α × Bool := (s.1, !s.1.isEmpty)

/-- What is put out for a text behind another letter. -/
def glue : List α → List α
  | [] => []
  | a :: x =>
    if blank a then if squeeze blank filler x = [] then [] else filler :: squeeze blank filler x
    else a :: glue x

variable {blank filler} {s : List α × Bool} {a : α} {x y : List α}

-- ---------------------------------------------------------------------------
-- Running
-- ---------------------------------------------------------------------------

@[simp] theorem run_nil : run blank filler s [] = s := rfl

@[simp] theorem run_cons : run blank filler s (a :: x) = run blank filler (step blank filler s a) x := rfl

theorem run_append (x y : List α) : run blank filler s (x ++ y) = run blank filler (run blank filler s x) y :=
  List.foldl_append

@[simp] theorem due_fst : (due s).1 = s.1 := rfl

@[simp] theorem due_due : due (due s) = due s := rfl

theorem due_congr {s' : List α × Bool} (h : s.1 = s'.1) : due s = due s' := by
  rw [due, h, due]

theorem step_blank (h : blank a = true) : step blank filler s a = due s := if_pos h

theorem step_letter (h : blank a = false) :
    step blank filler s a = ((if s.2 && !s.1.isEmpty then s.1 ++ [filler] else s.1) ++ [a], false) :=
  if_neg (by rw [h]; exact Bool.false_ne_true)

theorem run_due_blanks (h : ∀ a ∈ x, blank a = true) : run blank filler (due s) x = due s := by
  induction x with
  | nil => rfl
  | cons a x ih => rw [run_cons, step_blank (h a (.head _)), due_due, ih fun b hb => h b (.tail _ hb)]

theorem run_blanks (h : ∀ a ∈ x, blank a = true) (hx : x ≠ []) : run blank filler s x = due s := by
  cases x with
  | nil => exact absurd rfl hx
  | cons a x => rw [run_cons, step_blank (h a (.head _)), run_due_blanks fun b hb => h b (.tail _ hb)]

theorem run_blanks_fst (h : ∀ a ∈ x, blank a = true) : (run blank filler s x).1 = s.1 := by
  by_cases hx : x = []
  · rw [hx, run_nil]
  · rw [run_blanks h hx, due_fst]

theorem run_start_blanks (h : ∀ a ∈ x, blank a = true) : run blank filler ([], false) x = ([], false) :=
  run_due_blanks (s := ([], false)) h

theorem run_due_of_due (h : (run blank filler s x).2 = true) (hne : (run blank filler s x).1 ≠ []) :
    due (run blank filler s x) = run blank filler s x := by
  rw [due, List.isEmpty_eq_false_iff.mpr hne]
  exact Prod.ext rfl h.symm

-- ---------------------------------------------------------------------------
-- Trimming
-- ---------------------------------------------------------------------------

theorem run_fst_rdropWhile (x : List α) : (run blank filler s (x.rdropWhile blank)).1 = (run blank filler s x).1 := by
  obtain ⟨dropped, hx, hdropped⟩ := Trimming.exists_rdropWhile blank x
  conv_rhs => rw [hx, run_append, run_blanks_fst hdropped]

theorem run_due_dropWhile (x : List α) : run blank filler (due s) (x.dropWhile blank) = run blank filler (due s) x := by
  induction x with
  | nil => rfl
  | cons a x ih =>
    cases ha : blank a with
    | true => rw [List.dropWhile_cons_of_pos ha, run_cons, step_blank ha, due_due, ih]
    | false => rw [List.dropWhile_cons_of_neg (by rw [ha]; exact Bool.false_ne_true)]

theorem run_due_trim (x : List α) :
    (run blank filler (due s) (Trimming.trim blank x)).1 = (run blank filler (due s) x).1 := by
  rw [Trimming.trim, run_fst_rdropWhile, run_due_dropWhile]

@[simp] theorem squeeze_trim (x : List α) : squeeze blank filler (Trimming.trim blank x) = squeeze blank filler x :=
  run_due_trim (s := ([], false)) x

theorem squeeze_dropWhile (x : List α) : squeeze blank filler (x.dropWhile blank) = squeeze blank filler x := by
  rw [squeeze, squeeze]
  exact congrArg Prod.fst (run_due_dropWhile (s := ([], false)) x)

-- ---------------------------------------------------------------------------
-- Gluing
-- ---------------------------------------------------------------------------

@[simp] theorem glue_nil : glue blank filler [] = [] := rfl

theorem glue_letter (h : blank a = false) (x : List α) : glue blank filler (a :: x) = a :: glue blank filler x := by
  rw [glue, h]
  rfl

theorem glue_blank (h : blank a = true) (x : List α) :
    glue blank filler (a :: x) =
      if squeeze blank filler x = [] then [] else filler :: squeeze blank filler x :=
  if_pos h

theorem run_fst_of_ne_nil (x : List α) :
    ∀ out : List α, out ≠ [] →
      (run blank filler (out, false) x).1 = out ++ glue blank filler x ∧
        (run blank filler (out, true) x).1 =
          out ++ if squeeze blank filler x = [] then [] else filler :: squeeze blank filler x := by
  induction x with
  | nil => exact fun out _ => ⟨(List.append_nil _).symm, (List.append_nil _).symm⟩
  | cons a x ih =>
    intro out hout
    have hempty : out.isEmpty = false := List.isEmpty_eq_false_iff.mpr hout
    cases ha : blank a with
    | true =>
      have hsqueeze : squeeze blank filler (a :: x) = squeeze blank filler x := by
        rw [squeeze, run_cons, step_blank ha]
        rfl
      rw [run_cons, run_cons, step_blank ha, step_blank ha, due, due, hempty, glue_blank ha, hsqueeze]
      exact ⟨(ih out hout).2, (ih out hout).2⟩
    | false =>
      have hsqueeze : squeeze blank filler (a :: x) = a :: glue blank filler x := by
        rw [squeeze, run_cons, step_letter ha]
        exact (ih [a] (List.cons_ne_nil _ _)).1
      rw [run_cons, run_cons, step_letter ha, step_letter ha, hempty, glue_letter ha, hsqueeze,
        if_neg (List.cons_ne_nil _ _)]
      constructor
      · rw [show ((out, false).2 && !false) = false from rfl]
        exact ((ih (out ++ [a]) (by simp)).1).trans (List.append_assoc _ _ _)
      · rw [show ((out, true).2 && !false) = true from rfl]
        refine ((ih (out ++ [filler] ++ [a]) (by simp)).1).trans ?_
        rw [List.append_assoc, List.append_assoc]
        rfl

theorem squeeze_letter (h : blank a = false) (x : List α) :
    squeeze blank filler (a :: x) = a :: glue blank filler x := by
  rw [squeeze, run_cons, step_letter h]
  exact (run_fst_of_ne_nil x [a] (List.cons_ne_nil _ _)).1

theorem squeeze_blank (h : blank a = true) (x : List α) : squeeze blank filler (a :: x) = squeeze blank filler x := by
  rw [squeeze, run_cons, step_blank h]
  rfl

theorem squeeze_eq_nil_iff : squeeze blank filler x = [] ↔ ∀ a ∈ x, blank a = true := by
  induction x with
  | nil => simp [squeeze]
  | cons a x ih =>
    cases ha : blank a with
    | true => simp [squeeze_blank ha, ih, ha]
    | false => simp [squeeze_letter ha, ha]

theorem mem_squeeze (h : blank a = false) (hfiller : blank filler = true) :
    a ∈ squeeze blank filler x ↔ a ∈ x := by
  have hne : a ≠ filler := by
    rintro rfl
    rw [hfiller] at h
    cases h
  have hboth : (a ∈ squeeze blank filler x ↔ a ∈ x) ∧ (a ∈ glue blank filler x ↔ a ∈ x) := by
    induction x with
    | nil => exact ⟨Iff.rfl, Iff.rfl⟩
    | cons b x ih =>
      cases hb : blank b with
      | true =>
        have hab : a ≠ b := by
          rintro rfl
          rw [hb] at h
          cases h
        rw [squeeze_blank hb, glue_blank hb, ih.1, List.mem_cons, or_iff_right hab]
        refine ⟨Iff.rfl, ?_⟩
        split
        · rename_i hnil
          rw [← ih.1, hnil]
        · rw [List.mem_cons, or_iff_right hne, ih.1]
      | false =>
        rw [squeeze_letter hb, glue_letter hb, List.mem_cons, List.mem_cons, ih.2]
        exact ⟨Iff.rfl, Iff.rfl⟩
  exact hboth.1

theorem head?_squeeze (x : List α) : (squeeze blank filler x).head? = (x.dropWhile blank).head? := by
  induction x with
  | nil => rfl
  | cons a x ih =>
    cases ha : blank a with
    | true => rw [squeeze_blank ha, List.dropWhile_cons_of_pos ha, ih]
    | false =>
      rw [squeeze_letter ha, List.dropWhile_cons_of_neg (by rw [ha]; exact Bool.false_ne_true)]
      rfl

variable {p : α → Bool}

theorem takeWhile_glue (hp : ∀ a, p a = true → blank a = false) (hfiller : blank filler = true) (x : List α) :
    (glue blank filler x).takeWhile p = x.takeWhile p := by
  have hstop : ∀ a, blank a = true → p a = false := fun a ha =>
    Bool.eq_false_iff.mpr fun h => by rw [hp a h] at ha; cases ha
  induction x with
  | nil => rfl
  | cons a x ih =>
    cases ha : blank a with
    | true =>
      rw [glue_blank ha, List.takeWhile_cons_of_neg (by rw [hstop a ha]; exact Bool.false_ne_true)]
      split
      · rfl
      · rw [List.takeWhile_cons_of_neg (by rw [hstop filler hfiller]; exact Bool.false_ne_true)]
    | false =>
      rw [glue_letter ha, List.takeWhile_cons, List.takeWhile_cons, ih]

theorem dropWhile_glue (hp : ∀ a, p a = true → blank a = false) (hfiller : blank filler = true) (x : List α) :
    (glue blank filler x).dropWhile p = glue blank filler (x.dropWhile p) := by
  have hstop : ∀ a, blank a = true → p a = false := fun a ha =>
    Bool.eq_false_iff.mpr fun h => by rw [hp a h] at ha; cases ha
  induction x with
  | nil => rfl
  | cons a x ih =>
    cases ha : blank a with
    | true =>
      rw [List.dropWhile_cons_of_neg (by rw [hstop a ha]; exact Bool.false_ne_true), glue_blank ha]
      split
      · rfl
      · rw [List.dropWhile_cons_of_neg (by rw [hstop filler hfiller]; exact Bool.false_ne_true)]
    | false =>
      rw [glue_letter ha, List.dropWhile_cons, List.dropWhile_cons]
      split
      · exact ih
      · rw [glue_letter ha]

-- ---------------------------------------------------------------------------
-- Squeezing twice
-- ---------------------------------------------------------------------------

theorem squeeze_squeeze_and_glue_glue (hfiller : blank filler = true) (x : List α) :
    squeeze blank filler (squeeze blank filler x) = squeeze blank filler x ∧
      glue blank filler (glue blank filler x) = glue blank filler x := by
  induction x with
  | nil => exact ⟨rfl, rfl⟩
  | cons a x ih =>
    cases ha : blank a with
    | true =>
      refine ⟨by rw [squeeze_blank ha, ih.1], ?_⟩
      rw [glue_blank ha]
      split
      · rfl
      · rename_i hne
        rw [glue_blank hfiller, ih.1, if_neg hne]
    | false =>
      rw [squeeze_letter ha, squeeze_letter ha, glue_letter ha, glue_letter ha, ih.2]
      exact ⟨rfl, rfl⟩

theorem squeeze_squeeze (hfiller : blank filler = true) (x : List α) :
    squeeze blank filler (squeeze blank filler x) = squeeze blank filler x :=
  (squeeze_squeeze_and_glue_glue hfiller x).1

theorem squeeze_glue (hfiller : blank filler = true) (x : List α) :
    squeeze blank filler (glue blank filler x) = squeeze blank filler x := by
  cases x with
  | nil => rfl
  | cons a x =>
    cases ha : blank a with
    | true =>
      rw [glue_blank ha, squeeze_blank ha]
      split
      · rename_i hnil
        rw [hnil]
        rfl
      · rw [squeeze_blank hfiller, squeeze_squeeze hfiller]
    | false =>
      rw [glue_letter ha, squeeze_letter ha, (squeeze_squeeze_and_glue_glue hfiller x).2, squeeze_letter ha]

theorem takeWhile_squeeze (hp : ∀ a, p a = true → blank a = false) (hfiller : blank filler = true) (x : List α) :
    (squeeze blank filler x).takeWhile p = (x.dropWhile blank).takeWhile p := by
  induction x with
  | nil => rfl
  | cons a x ih =>
    cases ha : blank a with
    | true => rw [squeeze_blank ha, List.dropWhile_cons_of_pos ha, ih]
    | false =>
      rw [squeeze_letter ha, List.dropWhile_cons_of_neg (by rw [ha]; exact Bool.false_ne_true), List.takeWhile_cons,
        List.takeWhile_cons, takeWhile_glue hp hfiller]

theorem squeeze_dropWhile_squeeze (hp : ∀ a, p a = true → blank a = false) (hfiller : blank filler = true)
    (x : List α) :
    squeeze blank filler ((squeeze blank filler x).dropWhile p) =
      squeeze blank filler ((x.dropWhile blank).dropWhile p) := by
  induction x with
  | nil => rfl
  | cons a x ih =>
    cases ha : blank a with
    | true => rw [squeeze_blank ha, List.dropWhile_cons_of_pos ha, ih]
    | false =>
      have hself : (a :: x).dropWhile blank = a :: x :=
        List.dropWhile_cons_of_neg (by rw [ha]; exact Bool.false_ne_true)
      rw [squeeze_letter ha, hself, List.dropWhile_cons, List.dropWhile_cons]
      split
      · rw [dropWhile_glue hp hfiller, squeeze_glue hfiller]
      · rw [← glue_letter ha, squeeze_glue hfiller]

theorem squeeze_append_cons (h : blank a = true) (x y : List α) :
    squeeze blank filler (x ++ a :: y) =
      if squeeze blank filler x = [] then squeeze blank filler y
      else squeeze blank filler x ++ if squeeze blank filler y = [] then [] else filler :: squeeze blank filler y := by
  unfold squeeze
  rw [run_append, run_cons, step_blank h, due]
  split
  · rename_i hnil
    rw [hnil]
    rfl
  · rename_i hne
    rw [List.isEmpty_eq_false_iff.mpr hne]
    exact (run_fst_of_ne_nil y _ hne).2

end Squeezing
