import Mathlib.Tactic.TypeStar

/-!
# Loops without a bound

A `while` loop as a step function: a turn either goes on from a new state or
returns. `Ends` relates a state to what the loop returns from it. Whether it
returns at all follows from a well-founded order that every turn descends, and
what it returns from an invariant of the turns.
-/

namespace WhileLoops

variable {σ ρ : Type*}

inductive Step (σ ρ : Type*)
  | next (s : σ)
  | done (r : ρ)
  deriving DecidableEq

inductive Ends (step : σ → Step σ ρ) : σ → ρ → Prop
  | done {s r} : step s = .done r → Ends step s r
  | next {s s' r} : step s = .next s' → Ends step s' r → Ends step s r

/-- At most `turns` turns of the loop. -/
def run (step : σ → Step σ ρ) : Nat → σ → Option ρ
  | 0, _ => none
  | turns + 1, s =>
    match step s with
    | .done r => some r
    | .next s' => run step turns s'

variable {step : σ → Step σ ρ} {s s' : σ} {r r' : ρ}

theorem Ends.unique (h : Ends step s r) (h' : Ends step s r') : r = r' := by
  induction h with
  | done hstep =>
    cases h' with
    | done hstep' =>
      rw [hstep] at hstep'
      exact Step.done.inj hstep'
    | next hstep' _ =>
      rw [hstep] at hstep'
      cases hstep'
  | next hstep _ ih =>
    cases h' with
    | done hstep' =>
      rw [hstep] at hstep'
      cases hstep'
    | next hstep' h' =>
      rw [hstep] at hstep'
      obtain rfl := Step.next.inj hstep'
      exact ih h'

theorem ends_of_run {turns : Nat} (h : run step turns s = some r) : Ends step s r := by
  induction turns generalizing s with
  | zero => cases h
  | succ turns ih =>
    unfold run at h
    split at h
    · rename_i hstep
      exact .done (hstep.trans (congrArg _ (Option.some.inj h)))
    · rename_i hstep
      exact .next hstep (ih h)

theorem run_mono {turns turns' : Nat} (hle : turns ≤ turns') (h : run step turns s = some r) :
    run step turns' s = some r := by
  induction turns generalizing turns' s with
  | zero => cases h
  | succ turns ih =>
    obtain ⟨turns', rfl⟩ : ∃ n, turns' = n + 1 := ⟨turns' - 1, by omega⟩
    unfold run at h ⊢
    split at h
    · exact h
    · exact ih (Nat.le_of_succ_le_succ hle) h

theorem Ends.exists_run (h : Ends step s r) : ∃ turns, run step turns s = some r := by
  induction h with
  | done hstep => exact ⟨1, by simp only [run, hstep]⟩
  | next hstep _ ih =>
    obtain ⟨turns, hturns⟩ := ih
    exact ⟨turns + 1, by simp only [run, hstep, hturns]⟩

theorem exists_run_iff : (∃ turns, (run step turns s).isSome = true) ↔ ∃ r, Ends step s r := by
  constructor
  · rintro ⟨turns, hsome⟩
    obtain ⟨r, hr⟩ := Option.isSome_iff_exists.mp hsome
    exact ⟨r, ends_of_run hr⟩
  · rintro ⟨r, hends⟩
    obtain ⟨turns, hturns⟩ := hends.exists_run
    exact ⟨turns, by rw [hturns]; rfl⟩

theorem ends_of_descends {I : σ → Prop} {descends : σ → σ → Prop} (hwf : WellFounded descends)
    (hturn : ∀ s s', I s → step s = .next s' → I s' ∧ descends s' s) (hs : I s) : ∃ r, Ends step s r := by
  induction s using hwf.induction with
  | h s ih =>
    cases hstep : step s with
    | done r => exact ⟨r, .done hstep⟩
    | next s' =>
      obtain ⟨hs', hdescends⟩ := hturn s s' hs hstep
      obtain ⟨r, hr⟩ := ih s' hdescends hs'
      exact ⟨r, .next hstep hr⟩

/-- What every turn preserves and every return turns into a fact about the value
holds of what the loop returns. -/
theorem Ends.post {I : σ → Prop} {Q : ρ → Prop} (hnext : ∀ s s', I s → step s = .next s' → I s')
    (hdone : ∀ s r, I s → step s = .done r → Q r) (hs : I s) (h : Ends step s r) : Q r := by
  induction h with
  | done hstep => exact hdone _ _ hs hstep
  | next hstep _ ih => exact ih (hnext _ _ hs hstep)

end WhileLoops
