import Gentest.Lib.WhileLoops
import Mathlib.Data.Set.Card
import Mathlib.Logic.Relation

/-!
# Loops that come back

A loop that comes back to a state it was in never returns. From a state from which only
finitely many states are reached, this is the only way not to return.
-/

namespace WhileLoops

open Relation (ReflTransGen TransGen)

variable {σ ρ : Type*} {step : σ → Step σ ρ} {s s' : σ} {r : ρ}

def Turn (step : σ → Step σ ρ) (s s' : σ) : Prop := step s = .next s'

def visited (step : σ → Step σ ρ) (s : σ) : Set σ := {s' | ReflTransGen (Turn step) s s'}

/-- From a state the loop gets into one to which it comes back. -/
def ComesBack (step : σ → Step σ ρ) (s : σ) : Prop :=
  ∃ s' ∈ visited step s, TransGen (Turn step) s' s'

theorem Turn.unique {s'' : σ} (h : Turn step s s') (h' : Turn step s s'') : s' = s'' :=
  Step.next.inj (Eq.trans (Eq.symm h) h')

theorem Turn.comesBack (h : Turn step s s') (hs : ComesBack step s) : ComesBack step s' := by
  obtain ⟨x, hx, hcycle⟩ := hs
  obtain rfl | ⟨next, hnext, hrest⟩ := ReflTransGen.cases_head hx
  · obtain ⟨next, hnext, hrest⟩ := TransGen.head'_iff.mp hcycle
    obtain rfl := h.unique hnext
    exact ⟨s', .refl, .tail' hrest h⟩
  · obtain rfl := h.unique hnext
    exact ⟨x, hrest, hcycle⟩

theorem Ends.not_comesBack (h : Ends step s r) : ¬ComesBack step s := by
  induction h with
  | done hstep =>
    rintro ⟨x, hx, hcycle⟩
    have hturn : ∀ s', ¬Turn step _ s' := fun s' hturn => nomatch hstep.symm.trans hturn
    obtain rfl | ⟨next, hnext, -⟩ := ReflTransGen.cases_head hx
    · obtain ⟨next, hnext, -⟩ := TransGen.head'_iff.mp hcycle
      exact hturn next hnext
    · exact hturn next hnext
  | next hstep _ ih => exact fun hs => ih (Turn.comesBack hstep hs)

theorem exists_ends_iff (hfinite : (visited step s).Finite) : (∃ r, Ends step s r) ↔ ¬ComesBack step s := by
  refine ⟨fun ⟨r, h⟩ => h.not_comesBack, fun hs => ?_⟩
  refine ends_of_descends (I := fun s => (visited step s).Finite ∧ ¬ComesBack step s)
    (InvImage.wf (fun s => (visited step s).ncard) wellFounded_lt) (fun s s' hI hturn => ?_) ⟨hfinite, hs⟩
  obtain ⟨hfin, hcome⟩ := hI
  have hsub : visited step s' ⊆ visited step s := fun x hx => ReflTransGen.head hturn hx
  -- the state itself is not visited again
  have hnot : s ∉ visited step s' := fun hback => hcome ⟨s, .refl, TransGen.head' hturn hback⟩
  refine ⟨⟨hfin.subset hsub, ?_⟩, Set.ncard_lt_ncard ⟨hsub, fun hsup => hnot (hsup .refl)⟩ hfin⟩
  rintro ⟨x, hx, hcycle⟩
  exact hcome ⟨x, hsub hx, hcycle⟩

end WhileLoops
