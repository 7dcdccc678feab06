import Mathlib.Data.List.Induction
import Mathlib.Data.Option.Basic
import Mathlib.Logic.Relation
import Mathlib.Tactic.TypeStar

/-!
# Runs of a guarded step function

Several threads share a state and take atomic steps in any order. A step is a
label; `step s a` is `none` where the label is not enabled. An interleaving is
a list of labels, so a statement about every interleaving quantifies over
every list, and a concrete interleaving can be evaluated.
-/

namespace Interleaving

variable {σ α : Type*} {step : σ → α → Option σ} {s t u : σ} {a : α} {as bs : List α}

/-- Takes the steps in order, `none` as soon as one is not enabled. -/
def run (step : σ → α → Option σ) : σ → List α → Option σ
  | s, [] => some s
  | s, a :: as => (step s a).bind fun t => run step t as

attribute [local grind =] run

@[simp] theorem run_nil : run step s [] = some s := rfl

theorem run_cons : run step s (a :: as) = some u ↔ ∃ t, step s a = some t ∧ run step t as = some u := by
  simp [run, Option.bind_eq_some_iff]

theorem run_append :
    run step s (as ++ bs) = some u ↔ ∃ t, run step s as = some t ∧ run step t bs = some u := by
  induction as generalizing s with
  | nil => simp
  | cons a as ih =>
    simp only [List.cons_append, run_cons, ih]
    constructor
    · rintro ⟨v, hv, t, ht, hu⟩
      exact ⟨t, ⟨v, hv, ht⟩, hu⟩
    · rintro ⟨t, ⟨v, hv, ht⟩, hu⟩
      exact ⟨v, hv, t, ht, hu⟩

theorem run_invariant {P : σ → Prop} (hstep : ∀ s a t, P s → step s a = some t → P t)
    (hs : P s) (h : run step s as = some t) : P t := by
  induction as generalizing s with
  | nil => cases h; exact hs
  | cons a as ih =>
    obtain ⟨v, hv, h⟩ := run_cons.mp h
    exact ih (hstep _ _ _ hs hv) h

theorem run_history {P : List α → σ → Prop}
    (hstep : ∀ as s a t, P as s → step s a = some t → P (as ++ [a]) t)
    (hs : P [] s) (h : run step s as = some t) : P as t := by
  induction as using List.reverseRecOn generalizing t with
  | nil => cases h; exact hs
  | append_singleton as a ih =>
    obtain ⟨u, hu, h⟩ := run_append.mp h
    obtain ⟨v, hv, h⟩ := run_cons.mp h
    cases h
    exact hstep as u a _ (ih hu) hv

/-- Some step of the run was taken in a state where `E` holds of it. -/
def Happened (step : σ → α → Option σ) (E : σ → α → Prop) (s : σ) (as : List α) : Prop :=
  ∃ before a after t, as = before ++ a :: after ∧ run step s before = some t ∧ E t a

theorem not_happened_nil {E : σ → α → Prop} : ¬Happened step E s [] := by
  rintro ⟨before, a, after, t, h, -⟩
  simp at h

theorem happened_concat {E : σ → α → Prop} (h : run step s as = some t) :
    Happened step E s (as ++ [a]) ↔ Happened step E s as ∨ E t a := by
  constructor
  · rintro ⟨before, b, after, u, heq, hu, hE⟩
    rcases List.eq_nil_or_concat after with rfl | ⟨rest, c, rfl⟩
    · obtain ⟨rfl, hb⟩ := List.append_inj' heq rfl
      cases hb
      rw [h] at hu
      cases hu
      exact .inr hE
    · rw [List.concat_eq_append, ← List.cons_append, ← List.append_assoc] at heq
      exact .inl ⟨before, b, rest, u, (List.append_inj' heq rfl).1, hu, hE⟩
  · rintro (⟨before, b, after, u, rfl, hu, hE⟩ | hE)
    · exact ⟨before, b, after ++ [a], u, by simp, hu, hE⟩
    · exact ⟨as, a, [], t, rfl, h, hE⟩

theorem run_happened {E : σ → α → Prop} {P : Prop → σ → Prop}
    (hstep : ∀ e s a t, P e s → step s a = some t → P (e ∨ E s a) t)
    (hs : P False s) (h : run step s as = some t) : P (Happened step E s as) t := by
  have hboth : run step s as = some t ∧ P (Happened step E s as) t := by
    refine run_history (P := fun as t => run step s as = some t ∧ P (Happened step E s as) t) ?_ ?_ h
    · rintro as t a u ⟨hrun, ht⟩ hu
      refine ⟨run_append.mpr ⟨t, hrun, run_cons.mpr ⟨u, hu, rfl⟩⟩, ?_⟩
      rw [happened_concat hrun]
      exact hstep _ _ _ _ ht hu
    · rw [eq_false not_happened_nil]
      exact ⟨rfl, hs⟩
  exact hboth.2

/-- A preorder every step from a good state respects relates the ends of a
run; `P` is an invariant the step facts may use. -/
theorem run_rel {P : σ → Prop} {R : σ → σ → Prop} (hrefl : ∀ s, R s s)
    (htrans : ∀ s t u, R s t → R t u → R s u)
    (hinv : ∀ s a t, P s → step s a = some t → P t)
    (hstep : ∀ s a t, P s → step s a = some t → R s t)
    (hs : P s) (h : run step s as = some t) : R s t := by
  induction as generalizing s with
  | nil => cases h; exact hrefl _
  | cons a as ih =>
    obtain ⟨v, hv, h⟩ := run_cons.mp h
    exact htrans _ _ _ (hstep _ _ _ hs hv) (ih (hinv _ _ _ hs hv) h)

-- ---------------------------------------------------------------------------
-- Threads as a list of program points
-- ---------------------------------------------------------------------------

/-- Moving one thread on changes a count of threads by that thread only. -/
theorem countP_move {l : List α} {i : Nat} (p : α → Bool) (h : l[i]? = some a) (b : α) :
    (l.set i b).countP p + (if p a then 1 else 0) = l.countP p + (if p b then 1 else 0) := by
  obtain ⟨hi, rfl⟩ := List.getElem?_eq_some_iff.mp h
  have hle := List.boole_getElem_le_countP (p := p) hi
  rw [List.countP_set hi]
  omega

theorem mem_of_mem_move {l : List α} {i : Nat} {b x : α} (h : x ∈ l.set i b) : x = b ∨ x ∈ l :=
  (List.mem_or_eq_of_mem_set h).symm

theorem kept_of_moves {R : σ → σ → Prop} {P : σ → Prop} (h : Relation.ReflTransGen R s t)
    (hstep : ∀ s t, P s → R s t → P t) (hs : P s) : P t := by
  induction h with
  | refl => exact hs
  | tail _ hmove ih => exact hstep _ _ ih hmove

end Interleaving
