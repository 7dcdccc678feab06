import Mathlib.Data.List.Basic
import Mathlib.Tactic.TypeStar

/-!
# Scanners

One pass over a text by a step that sees, beside the letter it reads, the text
before it, last letter first, and the text behind it. A step may stop the pass.
`Reads` follows a pass over the front of a text with its rest present, so that a
text can be cut where the scanner's cases need it.
-/

namespace Scanner

variable {σ α ρ : Type*}

/-- The pass from a state: the state at the end of the text, or what a step
stopped with. -/
def scan (step : σ → List α → α → List α → Except ρ σ) : σ → List α → List α → Except ρ σ
  | s, _, [] => .ok s
  | s, before, a :: rest =>
    match step s before a rest with
    | .ok s => scan step s (a :: before) rest
    | .error r => .error r

/-- `Reads step s before front rest s'`: over `front`, with `rest` behind it, the
pass goes from `s` to `s'`. -/
inductive Reads (step : σ → List α → α → List α → Except ρ σ) :
    σ → List α → List α → List α → σ → Prop
  | done {s before rest} : Reads step s before [] rest s
  | step {s s' s'' before a front rest} : step s before a (front ++ rest) = .ok s' →
      Reads step s' (a :: before) front rest s'' → Reads step s before (a :: front) rest s''

section

variable {step : σ → List α → α → List α → Except ρ σ} {s s' s'' : σ}
  {before front behind rest : List α} {a : α}

theorem Reads.single (h : step s before a rest = .ok s') : Reads step s before [a] rest s' :=
  .step h .done

theorem Reads.append (first : Reads step s before front (behind ++ rest) s')
    (second : ∀ before, Reads step s' before behind rest s'') :
    Reads step s before (front ++ behind) rest s'' := by
  generalize hwhole : behind ++ rest = whole at first
  induction first with
  | done => exact second _
  | step hstep _ ih =>
    subst hwhole
    rw [← List.append_assoc] at hstep
    exact .step hstep (ih second rfl)

theorem Reads.scan_append (h : Reads step s before front rest s') :
    scan step s before (front ++ rest) = scan step s' (front.reverse ++ before) rest := by
  induction h with
  | done => rfl
  | step hstep _ ih =>
    rw [List.cons_append, scan, hstep]
    simpa using ih

theorem Reads.scan_all (h : Reads step s before front [] s') : scan step s before front = .ok s' := by
  simpa [scan] using h.scan_append

end

-- ---------------------------------------------------------------------------
-- Plain letters and literals
-- ---------------------------------------------------------------------------

section

variable [DecidableEq α] (mark quote : α)

/-- One letter inside a literal that ends at `quote` and in which `mark` takes the
next letter as it is: whether the next one is so taken, `none` at the end. -/
def literalStep (escape : Bool) (a : α) : Option Bool :=
  if escape then some false else if a = mark then some true else if a = quote then none else some false

/-- The text stays inside a literal and leaves nothing pending. -/
def StaysInside : Bool → List α → Prop
  | escape, [] => escape = false
  | escape, a :: rest => ∃ next, literalStep mark quote escape a = some next ∧ StaysInside next rest

variable {mark quote}

theorem StaysInside.append {escape : Bool} {front behind : List α} (h : StaysInside mark quote escape front)
    (hbehind : StaysInside mark quote false behind) : StaysInside mark quote escape (front ++ behind) := by
  induction front generalizing escape with
  | nil =>
    cases h
    exact hbehind
  | cons a front ih =>
    obtain ⟨next, hnext, hrest⟩ := h
    exact ⟨next, hnext, ih hrest⟩

/-- A scanner that keeps what it reads: the states outside and inside a literal
after a text. -/
structure ReadsLiterals (step : σ → List α → α → List α → Except ρ σ) (mark quote : α)
    (code : List α → σ) (inside : List α → Bool → σ) : Prop where
  opens : ∀ text before rest, step (code text) before quote rest = .ok (inside (text ++ [quote]) false)
  stays : ∀ text before rest a escape next, literalStep mark quote escape a = some next →
    step (inside text escape) before a rest = .ok (inside (text ++ [a]) next)
  closes : ∀ text before rest, step (inside text false) before quote rest = .ok (code (text ++ [quote]))

variable {step : σ → List α → α → List α → Except ρ σ} {code : List α → σ} {inside : List α → Bool → σ}

theorem ReadsLiterals.reads_inside (h : ReadsLiterals step mark quote code inside) {escape : Bool}
    {body : List α} (hbody : StaysInside mark quote escape body) (text before rest : List α) :
    Reads step (inside text escape) before body rest (inside (text ++ body) false) := by
  induction body generalizing text before escape with
  | nil =>
    cases hbody
    simpa using Reads.done
  | cons a body ih =>
    obtain ⟨next, hnext, hrest⟩ := hbody
    refine .step (h.stays text before _ a escape next hnext) ?_
    simpa using ih hrest (text ++ [a]) (a :: before)

theorem ReadsLiterals.reads_literal (h : ReadsLiterals step mark quote code inside) {body : List α}
    (hbody : StaysInside mark quote false body) (text before rest : List α) :
    Reads step (code text) before (quote :: body ++ [quote]) rest
      (code (text ++ (quote :: body ++ [quote]))) := by
  have hcloses := fun before => Reads.single (h.closes (text ++ [quote] ++ body) before rest)
  have hinside := (h.reads_inside hbody (text ++ [quote]) (quote :: before) ([quote] ++ rest)).append hcloses
  refine .step (h.opens text before _) ?_
  simpa using hinside

end

theorem reads_plain {step : σ → List α → α → List α → Except ρ σ} {code : List α → σ} {front rest : List α}
    (hplain : ∀ done a left, front = done ++ a :: left →
      ∀ text before, step (code text) before a (left ++ rest) = .ok (code (text ++ [a])))
    (text before : List α) : Reads step (code text) before front rest (code (text ++ front)) := by
  induction front generalizing text before with
  | nil => simpa using Reads.done
  | cons a front ih =>
    have hfront : ∀ done b left, front = done ++ b :: left →
        ∀ text before, step (code text) before b (left ++ rest) = .ok (code (text ++ [b])) := by
      rintro done b left rfl
      exact hplain (a :: done) b left rfl
    refine .step (hplain [] a front rfl text before) ?_
    simpa using ih hfront (text ++ [a]) (a :: before)

end Scanner
