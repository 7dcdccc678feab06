import Gentest.Lib.Scanner

/-!
# Cutting a text

A text is cut at letters that a step picks out. The step sees, beside its state,
the text before the letter, last letter first, the piece so far and the text behind
it. A letter cut at belongs to no piece, and each piece starts over.
-/

namespace Pieces

variable {κ α : Type*}

/-- `none` cuts. -/
abbrev Step (κ α : Type*) := κ → List α → List α → α → List α → Option κ

def cut (step : Step κ α) (start : κ) : κ → List α → List α → List α → List (List α)
  | _, _, current, [] => [current]
  | k, before, current, a :: rest =>
    match step k before current a rest with
    | none => current :: cut step start start (a :: before) [] rest
    | some k => cut step start k (a :: before) (current ++ [a]) rest

/-- Over `front`, with `rest` behind it, nothing is cut and the state goes from `k`
to `k'`. -/
inductive Keeps (step : Step κ α) : κ → List α → List α → List α → List α → κ → Prop
  | done {k before current rest} : Keeps step k before current [] rest k
  | step {k k' k'' before current a front rest} : step k before current a (front ++ rest) = some k' →
      Keeps step k' (a :: before) (current ++ [a]) front rest k'' → Keeps step k before current (a :: front) rest k''

variable {step : Step κ α} {start k k' k'' : κ} {before current front behind rest text piece : List α} {a : α}

theorem Keeps.single (h : step k before current a rest = some k') : Keeps step k before current [a] rest k' :=
  .step h .done

theorem Keeps.append (first : Keeps step k before current front (behind ++ rest) k')
    (second : Keeps step k' (front.reverse ++ before) (current ++ front) behind rest k'') :
    Keeps step k before current (front ++ behind) rest k'' := by
  generalize hwhole : behind ++ rest = whole at first
  induction first with
  | done => simpa using second
  | step hstep _ ih =>
    subst hwhole
    rw [← List.append_assoc] at hstep
    exact .step hstep (ih (by simpa using second) rfl)

attribute [local grind =] cut

theorem cut_ne_nil : cut step start k before current text ≠ [] := by
  induction text generalizing k before current with
  | nil => exact List.cons_ne_nil _ _
  | cons a rest ih =>
    unfold cut
    split
    · exact List.cons_ne_nil _ _
    · exact ih

theorem cut_eq_singleton (h : cut step start k before current text = [piece]) : piece = current ++ text := by
  induction text generalizing k before current with
  | nil => simpa [cut, eq_comm] using h
  | cons a rest ih =>
    unfold cut at h
    split at h
    · exact absurd (List.cons.inj h).2 cut_ne_nil
    · simpa using ih h

theorem mem_of_mem_cut (hpiece : piece ∈ cut step start k before current text) (ha : a ∈ piece) :
    a ∈ current ∨ a ∈ text := by
  induction text generalizing k before current with
  | nil =>
    obtain rfl := List.mem_singleton.mp hpiece
    exact .inl ha
  | cons b rest ih =>
    unfold cut at hpiece
    split at hpiece
    · obtain rfl | hpiece := List.mem_cons.mp hpiece
      · exact .inl ha
      · obtain hcurrent | hrest := ih hpiece
        · cases hcurrent
        · exact .inr (List.mem_cons_of_mem b hrest)
    · obtain hcurrent | hrest := ih hpiece
      · obtain hcurrent | hb := List.mem_append.mp hcurrent
        · exact .inl hcurrent
        · exact .inr (List.mem_cons.mpr (.inl (List.mem_singleton.mp hb)))
      · exact .inr (List.mem_cons_of_mem b hrest)

-- ---------------------------------------------------------------------------
-- Scanners that cut
-- ---------------------------------------------------------------------------

/-- A scanner that cuts where the step does: `R s k current done` says what it holds
of the pieces done and of the one it is in. -/
structure Cuts {σ ρ : Type*} (scanner : σ → List α → α → List α → Except ρ σ) (step : Step κ α) (start : κ)
    (R : σ → κ → List α → List (List α) → Prop) : Prop where
  cuts : ∀ s k before current a rest done, R s k current done → step k before current a rest = none →
    ∃ s', scanner s before a rest = .ok s' ∧ R s' start [] (done ++ [current])
  goesOn : ∀ s k k' before current a rest done, R s k current done → step k before current a rest = some k' →
    ∃ s', scanner s before a rest = .ok s' ∧ R s' k' (current ++ [a]) done

theorem Cuts.scan_from {σ ρ : Type*} {scanner : σ → List α → α → List α → Except ρ σ}
    {R : σ → κ → List α → List (List α) → Prop} (h : Cuts scanner step start R) {s : σ} {done : List (List α)}
    (hs : R s k current done) :
    ∃ s' k' last front, Scanner.scan scanner s before text = .ok s' ∧ R s' k' last front ∧
      front ++ [last] = done ++ cut step start k before current text := by
  induction text generalizing s k before current done with
  | nil => exact ⟨s, k, current, done, rfl, hs, rfl⟩
  | cons a rest ih =>
    cases hstep : step k before current a rest with
    | none =>
      obtain ⟨next, hnext, hR⟩ := h.cuts s k before current a rest done hs hstep
      obtain ⟨s', k', last, front, hscan, hend, hpieces⟩ := ih hR
      refine ⟨s', k', last, front, by rw [Scanner.scan, hnext]; exact hscan, hend, ?_⟩
      rw [hpieces, cut, hstep, List.append_assoc]
      rfl
    | some k₁ =>
      obtain ⟨next, hnext, hR⟩ := h.goesOn s k k₁ before current a rest done hs hstep
      obtain ⟨s', k', last, front, hscan, hend, hpieces⟩ := ih hR
      refine ⟨s', k', last, front, by rw [Scanner.scan, hnext]; exact hscan, hend, ?_⟩
      rw [hpieces, cut, hstep]

theorem Cuts.scan_all {σ ρ : Type*} {scanner : σ → List α → α → List α → Except ρ σ}
    {R : σ → κ → List α → List (List α) → Prop} (h : Cuts scanner step start R) (s : σ) (text : List α)
    (hs : R s start [] []) :
    ∃ s' k' last front, Scanner.scan scanner s [] text = .ok s' ∧ R s' k' last front ∧
      front ++ [last] = cut step start start [] [] text :=
  h.scan_from hs

end Pieces
