import Gentest.Lib.Scanner

/-!
# What a pass is inside of

A pass is followed by one mark for each letter it reads: whether it is inside of
something behind the letter. Two scanners agree on where literals begin and end if
their marks do.
-/

namespace Scanner

variable {σ α ρ : Type*}

def marks (step : σ → List α → α → List α → Except ρ σ) (inside : σ → Bool) : σ → List α → List α → List Bool
  | _, _, [] => []
  | s, before, a :: rest =>
    match step s before a rest with
    | .ok s' => inside s' :: marks step inside s' (a :: before) rest
    | .error _ => []

/-- Over `front`, with `rest` behind it, the pass goes from `s` to `s'` with these
marks. -/
inductive Marked (step : σ → List α → α → List α → Except ρ σ) (inside : σ → Bool) :
    σ → List α → List α → List α → List Bool → σ → Prop
  | done {s before rest} : Marked step inside s before [] rest [] s
  | step {s s' s'' before a front rest bs} : step s before a (front ++ rest) = .ok s' →
      Marked step inside s' (a :: before) front rest bs s'' →
      Marked step inside s before (a :: front) rest (inside s' :: bs) s''

section

variable {step : σ → List α → α → List α → Except ρ σ} {inside : σ → Bool} {s s' s'' : σ}
  {before front behind rest : List α} {a : α} {bs bs' tail : List Bool} {b : Bool}

theorem Marked.single (h : step s before a rest = .ok s') (hb : inside s' = b) :
    Marked step inside s before [a] rest [b] s' := by
  subst hb
  exact .step h .done

theorem Marked.reads (h : Marked step inside s before front rest bs s') : Reads step s before front rest s' := by
  induction h with
  | done => exact .done
  | step hstep _ ih => exact .step hstep ih

theorem Reads.append_known (first : Reads step s before front (behind ++ rest) s')
    (second : Reads step s' (front.reverse ++ before) behind rest s'') :
    Reads step s before (front ++ behind) rest s'' := by
  generalize hwhole : behind ++ rest = whole at first
  induction first with
  | done => simpa using second
  | step hstep _ ih =>
    subst hwhole
    rw [← List.append_assoc] at hstep
    exact .step hstep (ih (by simpa using second) rfl)

theorem Marked.append (first : Marked step inside s before front (behind ++ rest) bs s')
    (second : Marked step inside s' (front.reverse ++ before) behind rest bs' s'') :
    Marked step inside s before (front ++ behind) rest (bs ++ bs') s'' := by
  generalize hwhole : behind ++ rest = whole at first
  induction first with
  | done => simpa using second
  | step hstep _ ih =>
    subst hwhole
    rw [← List.append_assoc] at hstep
    exact .step hstep (ih (by simpa using second) rfl)

theorem Marked.marks_append (h : Marked step inside s before front rest bs s') :
    marks step inside s before (front ++ rest) = bs ++ marks step inside s' (front.reverse ++ before) rest := by
  induction h with
  | done => rfl
  | step hstep _ ih =>
    rw [List.cons_append, marks, hstep]
    simpa using ih

/-- A pass that is marked otherwise at its next letter has other marks. -/
theorem marks_ne (h : step s before a rest = .ok s') (hb : inside s' ≠ b) :
    marks step inside s before (a :: rest) ≠ b :: tail := by
  rw [marks, h]
  exact fun heq => hb (List.cons.inj heq).1

end

-- ---------------------------------------------------------------------------
-- Literals
-- ---------------------------------------------------------------------------

/-- A scanner that keeps what it reads and is inside of a literal up to the quote
that no mark takes. -/
structure MarksLiterals (step : σ → List α → α → List α → Except ρ σ) [DecidableEq α] (inside : σ → Bool)
    (mark quote : α) (code : List α → σ) (literal : List α → Bool → σ) : Prop where
  steps : ∀ text before rest a escape, step (literal text escape) before a rest =
    .ok (match literalStep mark quote escape a with
      | some next => literal (text ++ [a]) next
      | none => code (text ++ [a]))
  outside : ∀ text, inside (code text) = false
  within : ∀ text escape, inside (literal text escape) = true

section

variable [DecidableEq α] {step : σ → List α → α → List α → Except ρ σ} {inside : σ → Bool} {mark quote : α}
  {code : List α → σ} {literal : List α → Bool → σ} {body rest before text : List α} {escape : Bool}

theorem MarksLiterals.marked (h : MarksLiterals step inside mark quote code literal) (hquote : quote ≠ mark)
    (hbody : StaysInside mark quote escape body) (text before rest : List α) :
    Marked step inside (literal text escape) before (body ++ [quote]) rest
      (List.replicate body.length true ++ [false]) (code (text ++ body ++ [quote])) := by
  induction body generalizing text before escape with
  | nil =>
    cases hbody
    have hstep := h.steps text before rest quote false
    simp only [literalStep, Bool.false_eq_true, if_neg hquote, ↓reduceIte] at hstep
    simpa using Marked.single hstep (h.outside _)
  | cons a body ih =>
    obtain ⟨next, hnext, hrest⟩ := hbody
    have hstep := h.steps text before (body ++ [quote] ++ rest) a escape
    rw [hnext] at hstep
    have hmore := Marked.step hstep (ih hrest (text ++ [a]) (a :: before))
    rw [h.within] at hmore
    simpa [List.replicate_succ] using hmore

instance decidableStaysInside (mark quote : α) :
    ∀ (escape : Bool) (text : List α), Decidable (StaysInside mark quote escape text)
  | escape, [] => inferInstanceAs (Decidable (escape = false))
  | escape, a :: text =>
    match hnext : literalStep mark quote escape a with
    | none => isFalse fun h => by
      obtain ⟨next, hstep, -⟩ := h
      rw [hnext] at hstep
      cases hstep
    | some next =>
      have := decidableStaysInside mark quote next text
      decidable_of_iff (StaysInside mark quote next text)
        ⟨fun h => ⟨next, hnext, h⟩, fun ⟨_, hstep, h⟩ => Option.some.inj (hnext.symm.trans hstep) ▸ h⟩

theorem MarksLiterals.staysInside (h : MarksLiterals step inside mark quote code literal) {tail : List Bool}
    (hmarks : marks step inside (literal text escape) before (body ++ quote :: rest) =
      List.replicate body.length true ++ false :: tail) : StaysInside mark quote escape body := by
  induction body generalizing text before escape with
  | nil =>
    rw [List.nil_append, marks, h.steps] at hmarks
    cases escape with
    | false => rfl
    | true =>
      have hinside := (List.cons.inj hmarks).1
      simp [literalStep, h.within] at hinside
  | cons a body ih =>
    rw [List.cons_append, marks, h.steps] at hmarks
    obtain ⟨hhead, htail⟩ := List.cons.inj hmarks
    cases hnext : literalStep mark quote escape a with
    | none =>
      rw [hnext] at hhead
      rw [h.outside] at hhead
      cases hhead
    | some next =>
      rw [hnext] at htail
      exact ⟨next, hnext, ih htail⟩

end

end Scanner
