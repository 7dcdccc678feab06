import Mathlib.Data.List.Basic

/-!
# Selecting a case by its name

With `--run` a case is selected by its whole name or, when no name is that one,
by the end of its name. More than one match of the kind asked for is ambiguous.
-/

namespace Gentest.Runner

inductive KindFilter
  | all
  | test
  | bench
  | jitter
  deriving DecidableEq, Repr

structure ListedCase where
  name : String
  isBenchmark : Bool := false
  isJitter : Bool := false
  deriving DecidableEq, Repr

def caseMatchesKind (c : ListedCase) : KindFilter → Bool
  | .all => true
  | .test => !c.isBenchmark && !c.isJitter
  | .bench => c.isBenchmark
  | .jitter => c.isJitter

inductive Selection
  | selected (idx : Nat)
  | kindMismatch
  | ambiguous (matches_ : List Nat)
  | caseNotFound
  deriving DecidableEq, Repr

def matching (cases : List ListedCase) (p : ListedCase → Bool) : List Nat :=
  (cases.zipIdx.filter fun item => p item.1).map Prod.snd

def selectAmong (cases : List ListedCase) (kind : KindFilter) (p : ListedCase → Bool) : Selection :=
  match matching cases fun c => p c && caseMatchesKind c kind with
  | [] => .kindMismatch
  | [idx] => .selected idx
  | idxs => .ambiguous idxs

/-- The branch of `select_cases` for `--run`. -/
def selectExact (cases : List ListedCase) (kind : KindFilter) (exact : String) : Selection :=
  if cases.any (·.name = exact) then selectAmong cases kind (·.name = exact)
  else if cases.any (exact.toList.isSuffixOf ·.name.toList) then
    selectAmong cases kind (exact.toList.isSuffixOf ·.name.toList)
  else .caseNotFound

theorem mem_matching {cases : List ListedCase} {p : ListedCase → Bool} {i : Nat} :
    i ∈ matching cases p ↔ ∃ c, cases[i]? = some c ∧ p c = true := by
  simp only [matching, List.mem_map, List.mem_filter, Prod.exists, exists_eq_right,
    List.mk_mem_zipIdx_iff_getElem?]

theorem matching_nodup {cases : List ListedCase} {p : ListedCase → Bool} : (matching cases p).Nodup := by
  have hsublist : (matching cases p).Sublist (cases.zipIdx.map Prod.snd) :=
    List.filter_sublist.map Prod.snd
  refine hsublist.nodup ?_
  rw [List.zipIdx_map_snd]
  exact List.nodup_range'

def OnlyNamed (cases : List ListedCase) (kind : KindFilter) (name : String) (i : Nat) : Prop :=
  ∀ j c, cases[j]? = some c → c.name = name → caseMatchesKind c kind = true → j = i

/-- The name of a case of the kind selects it if no other has it, and is ambiguous otherwise. -/
theorem selectExact_name {cases : List ListedCase} {kind : KindFilter} {i : Nat} {c : ListedCase}
    (hc : cases[i]? = some c) (hkind : caseMatchesKind c kind = true) :
    OnlyNamed cases kind c.name i ∧ selectExact cases kind c.name = .selected i ∨
      ¬OnlyNamed cases kind c.name i ∧ ∃ idxs, selectExact cases kind c.name = .ambiguous idxs := by
  have hany : cases.any (·.name = c.name) = true :=
    List.any_eq_true.mpr ⟨c, List.mem_of_getElem? hc, decide_eq_true rfl⟩
  have hself : i ∈ matching cases fun c' => c'.name = c.name && caseMatchesKind c' kind :=
    mem_matching.mpr ⟨c, hc, by simp [hkind]⟩
  have hothers : OnlyNamed cases kind c.name i ↔
      ∀ j ∈ matching cases fun c' => c'.name = c.name && caseMatchesKind c' kind, j = i := by
    simp only [OnlyNamed, mem_matching, Bool.and_eq_true, decide_eq_true_eq]
    constructor
    · rintro h j ⟨c', hc', hname, hkind'⟩
      exact h j c' hc' hname hkind'
    · exact fun h j c' hc' hname hkind' => h j ⟨c', hc', hname, hkind'⟩
  rw [selectExact, if_pos hany, hothers, selectAmong]
  have hnodup : (matching cases fun c' => c'.name = c.name && caseMatchesKind c' kind).Nodup :=
    matching_nodup
  generalize (matching cases fun c' => c'.name = c.name && caseMatchesKind c' kind) = idxs
    at hself hnodup ⊢
  match idxs with
  | [] => cases hself
  | [idx] =>
    rw [List.mem_singleton] at hself
    simp [hself]
  | idx :: idx' :: idxs =>
    refine .inr ⟨fun h => ?_, _, rfl⟩
    have hfirst := h idx List.mem_cons_self
    have hsecond := h idx' (List.mem_cons_of_mem _ List.mem_cons_self)
    exact absurd (List.mem_cons.mpr (.inl (hfirst.trans hsecond.symm))) (List.nodup_cons.mp hnodup).1

end Gentest.Runner
