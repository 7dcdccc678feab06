import Gentest.Lib.Utf8
import Gentest.Runner.CaseSelection
import Gentest.Runner.Wildcard

/-!
# Cases by kind

A case may be a benchmark and a jitter at once. `select_cases` matches it with either
kind, `split_selected_cases` puts it among the benchmarks, and the inventory calls it
a jitter.
-/

namespace Gentest.Runner.Selector

open Gentest.Runner (KindFilter ListedCase OnlyNamed Selection caseMatchesKind matching selectExact
  selectExact_name selectAmong
  WildcardMatch wildcardMatch)

-- ---------------------------------------------------------------------------
-- The selection
-- ---------------------------------------------------------------------------

/-- A registered case with what `select_cases` reads of it. -/
structure TaggedCase extends ListedCase where
  tags : List String := []
  deriving DecidableEq, Repr

/-- What `select_cases` reads of the options. -/
structure CliOptions where
  runExact : Option String := none
  filterPat : Option String := none
  kind : KindFilter := .all
  includeDeath : Bool := false
  deriving DecidableEq, Repr

inductive SelectionStatus
  | ok
  | caseNotFound
  | kindMismatch
  | ambiguous
  | filterNoBenchMatch
  | filterNoJitterMatch
  | zeroSelected
  | deathExcludedExact
  | deathExcludedAll
  deriving DecidableEq, Repr

structure SelectionResult where
  status : SelectionStatus := .ok
  idxs : List Nat := []
  ambiguousMatches : List Nat := []
  testIdxs : List Nat := []
  benchIdxs : List Nat := []
  jitterIdxs : List Nat := []
  hasSelection : Bool := false
  filteredDeath : Nat := 0
  deriving DecidableEq, Repr

def lowerAscii (c : Char) : Char :=
  if 'A' ≤ c ∧ c ≤ 'Z' then Char.ofNat (c.toNat - 'A'.toNat + 'a'.toNat) else c

def iequalsAscii (lhs rhs : String) : Bool :=
  lhs.toList.map lowerAscii == rhs.toList.map lowerAscii

def hasTagCi (c : TaggedCase) (tag : String) : Bool :=
  c.tags.any (iequalsAscii · tag)

variable (cases : List TaggedCase) (opt : CliOptions)

/-- One turn of the loop of `split_selected_cases`. -/
def splitCase (out : SelectionResult) (idx : Nat) : SelectionResult :=
  match cases[idx]? with
  | none => out
  | some c =>
    if c.isBenchmark then { out with benchIdxs := out.benchIdxs ++ [idx] }
    else if c.isJitter then { out with jitterIdxs := out.jitterIdxs ++ [idx] }
    else { out with testIdxs := out.testIdxs ++ [idx] }

def splitSelectedCases (idxs : List Nat) (out : SelectionResult) : SelectionResult :=
  idxs.foldl (splitCase cases) out

/-- The bytes of a text, as `wildcard_match` goes over them. -/
def bytes (text : String) : List Char := (Utf8.encode text.toList).map fun b => Char.ofNat b.toNat

def holdsAt (p : TaggedCase → Bool) (idx : Nat) : Bool :=
  (cases[idx]?).any p

def nameMatches : Except SelectionResult (List Nat) :=
  let result : SelectionResult := { hasSelection := opt.runExact.isSome || opt.filterPat.isSome }
  match opt.runExact, opt.filterPat with
  | some exact, _ =>
    match selectExact (cases.map (·.toListedCase)) opt.kind exact with
    | .selected idx => .ok [idx]
    | .kindMismatch => .error { result with status := .kindMismatch }
    | .ambiguous idxs => .error { result with status := .ambiguous, ambiguousMatches := idxs }
    | .caseNotFound => .error { result with status := .caseNotFound }
  | none, some pattern =>
    .ok ((List.range cases.length).filter (holdsAt cases fun c => wildcardMatch (bytes c.name) (bytes pattern)))
  | none, none => .ok (List.range cases.length)

def emptyStatus : SelectionStatus :=
  match opt.filterPat, opt.kind with
  | some _, .bench => .filterNoBenchMatch
  | some _, .jitter => .filterNoJitterMatch
  | _, _ => .zeroSelected

/-- The end of `select_cases`, with the cases that are left. -/
def finishSelection (idxs : List Nat) (filteredDeath : Nat) : SelectionResult :=
  splitSelectedCases cases idxs
    { status := .ok, idxs, filteredDeath, hasSelection := opt.runExact.isSome || opt.filterPat.isSome }

def selectCases : SelectionResult :=
  match nameMatches cases opt with
  | .error result => result
  | .ok named =>
    let hasSelection := opt.runExact.isSome || opt.filterPat.isSome
    let idxs := named.filter (holdsAt cases fun c => caseMatchesKind c.toListedCase opt.kind)
    if idxs.isEmpty then { status := emptyStatus opt, hasSelection }
    else if opt.includeDeath then finishSelection cases opt idxs 0
    else
      let kept := idxs.filter fun idx => !holdsAt cases (hasTagCi · "death") idx
      let filteredDeath := idxs.length - kept.length
      if kept.isEmpty ∧ 0 < filteredDeath then
        { status := if opt.runExact.isSome then .deathExcludedExact else .deathExcludedAll
          filteredDeath, hasSelection }
      else finishSelection cases opt kept filteredDeath

def inventoryKind (c : ListedCase) : String :=
  if c.isJitter then "jitter" else if c.isBenchmark then "bench" else "test"

def kindToString : KindFilter → String
  | .all => "all"
  | .test => "test"
  | .bench => "bench"
  | .jitter => "jitter"

-- ---------------------------------------------------------------------------
-- What is asked for
-- ---------------------------------------------------------------------------

/-- The rule for the names: with `--run` the whole name or, when no name is that one,
its end, and with `--filter` the pattern. -/
def nameRule (c : TaggedCase) : Bool :=
  match opt.runExact, opt.filterPat with
  | some exact, _ =>
    if cases.any (·.name = exact) then c.name = exact else exact.toList.isSuffixOf c.name.toList
  | none, some pattern => wildcardMatch (bytes c.name) (bytes pattern)
  | none, none => true

def wanted (c : TaggedCase) : Bool :=
  nameRule cases opt c && caseMatchesKind c.toListedCase opt.kind && (opt.includeDeath || !hasTagCi c "death")

def SelectionResult.kindIdxs (result : SelectionResult) : KindFilter → List Nat
  | .all => result.idxs
  | .test => result.testIdxs
  | .bench => result.benchIdxs
  | .jitter => result.jitterIdxs

/-- What is selected is what is asked for, and the split into kinds agrees with the
kind asked for and with the inventory. -/
structure KindsAgree (result : SelectionResult) : Prop where
  exact : result.idxs = (List.range cases.length).filter (holdsAt cases (wanted cases opt))
  ordered : ∀ kind, (result.kindIdxs kind).Sublist result.idxs
  apart : ∀ kind kind', kind ≠ .all → kind' ≠ .all → kind ≠ kind' →
    (result.kindIdxs kind).Disjoint (result.kindIdxs kind')
  together : ∀ i ∈ result.idxs, ∃ kind, kind ≠ .all ∧ i ∈ result.kindIdxs kind
  asked : opt.kind ≠ .all → ∀ i ∈ result.idxs, i ∈ result.kindIdxs opt.kind
  inventory : ∀ i ∈ result.idxs, ∀ c, cases[i]? = some c →
    ∃ kind, kindToString kind = inventoryKind c.toListedCase ∧ i ∈ result.kindIdxs kind

-- ---------------------------------------------------------------------------
-- The steps of the selection
-- ---------------------------------------------------------------------------

section

variable {cases : List TaggedCase} {opt : CliOptions} {p q : TaggedCase → Bool}

theorem mem_filter_holdsAt {idxs : List Nat} {i : Nat} {c : TaggedCase} (hc : cases[i]? = some c) :
    i ∈ idxs.filter (holdsAt cases p) ↔ i ∈ idxs ∧ p c = true := by
  simp [holdsAt, hc]

theorem filter_holdsAt_filter (idxs : List Nat) :
    (idxs.filter (holdsAt cases p)).filter (holdsAt cases q) = idxs.filter (holdsAt cases fun c => p c && q c) := by
  rw [List.filter_filter]
  refine List.filter_congr fun i _ => ?_
  cases hc : cases[i]? with
  | none => simp [holdsAt, hc]
  | some c => simp [holdsAt, hc, Bool.and_comm]

theorem splitSelectedCases_eq (idxs : List Nat) (out : SelectionResult) :
    splitSelectedCases cases idxs out =
      { out with
        benchIdxs := out.benchIdxs ++ idxs.filter (holdsAt cases (·.isBenchmark))
        jitterIdxs := out.jitterIdxs ++ idxs.filter (holdsAt cases fun c => !c.isBenchmark && c.isJitter)
        testIdxs := out.testIdxs ++ idxs.filter (holdsAt cases fun c => !c.isBenchmark && !c.isJitter) } := by
  induction idxs generalizing out with
  | nil => simp [splitSelectedCases]
  | cons idx idxs ih =>
    rw [splitSelectedCases, List.foldl_cons, ← splitSelectedCases, ih]
    cases hc : cases[idx]? with
    | none => simp [splitCase, holdsAt, hc]
    | some c =>
      cases hbench : c.isBenchmark <;> cases hjitter : c.isJitter <;>
        simp [splitCase, holdsAt, hc, hbench, hjitter]

theorem matching_eq_filter_range (p : ListedCase → Bool) :
    matching (cases.map (·.toListedCase)) p =
      (List.range cases.length).filter (holdsAt cases fun c => p c.toListedCase) := by
  have hrange : (List.range cases.length) = cases.zipIdx.map Prod.snd := by
    rw [List.zipIdx_map_snd, List.range_eq_range']
  rw [matching, hrange, List.filter_map, List.zipIdx_map, List.filter_map, List.map_map]
  refine congrArg (List.map _) (List.filter_congr fun item hitem => ?_)
  obtain ⟨c, i⟩ := item
  have hc := List.mk_mem_zipIdx_iff_getElem?.mp hitem
  simp [holdsAt, hc]

theorem selectAmong_selected {listed : List ListedCase} {kind : KindFilter} {named : ListedCase → Bool} {idx : Nat}
    (h : selectAmong listed kind named = .selected idx) :
    matching listed (fun c => named c && caseMatchesKind c kind) = [idx] := by
  unfold selectAmong at h
  split at h
  · cases h
  · rename_i hidx
    rw [hidx, Selection.selected.inj h]
  · cases h

/-- Where `--run` selects a case, it is the only one of the kind with the name. -/
theorem selectExact_selected {exact : String} {idx : Nat} (hexact : opt.runExact = some exact)
    (h : selectExact (cases.map (·.toListedCase)) opt.kind exact = .selected idx) :
    (List.range cases.length).filter
      (holdsAt cases fun c => nameRule cases opt c && caseMatchesKind c.toListedCase opt.kind) = [idx] := by
  unfold selectExact at h
  rw [List.any_map] at h
  split at h
  · rename_i hany
    rw [← selectAmong_selected h, matching_eq_filter_range]
    simp only [nameRule, hexact, if_pos (show cases.any (·.name = exact) = true from hany)]
  · rename_i hany
    split at h
    · rw [← selectAmong_selected h, matching_eq_filter_range]
      simp only [nameRule, hexact, if_neg (show ¬cases.any (·.name = exact) = true from hany)]
    · cases h

theorem nameMatches_filter {named : List Nat} (h : nameMatches cases opt = .ok named) :
    named.filter (holdsAt cases fun c => caseMatchesKind c.toListedCase opt.kind) =
      (List.range cases.length).filter
        (holdsAt cases fun c => nameRule cases opt c && caseMatchesKind c.toListedCase opt.kind) := by
  unfold nameMatches at h
  split at h
  · rename_i exact hexact
    split at h
    · rename_i idx hselected
      obtain rfl := Except.ok.inj h
      have hall := selectExact_selected hexact hselected
      have hidx : idx ∈ [idx] := List.mem_singleton_self idx
      rw [← hall, List.mem_filter] at hidx
      rw [hall, List.filter_cons_of_pos ?_, List.filter_nil]
      cases hc : cases[idx]? with
      | none => simp [holdsAt, hc] at hidx
      | some c =>
        simp only [holdsAt, hc, Option.any_some, Bool.and_eq_true] at hidx ⊢
        exact hidx.2.2
    · cases h
    · cases h
    · cases h
  · rename_i hexact hfilter
    obtain rfl := Except.ok.inj h
    rw [filter_holdsAt_filter]
    simp only [nameRule, hexact, hfilter]
  · rename_i hexact hfilter
    obtain rfl := Except.ok.inj h
    simp only [nameRule, hexact, hfilter, Bool.true_and]

/-- What `--run` ends in with the name of a case of the kind asked for: the case alone, unless
another has the name or the case is a death test that is not asked for. -/
theorem selectCases_name {i : Nat} {c : TaggedCase} (hc : cases[i]? = some c) (hexact : opt.runExact = some c.name)
    (hkind : caseMatchesKind c.toListedCase opt.kind = true) :
    (OnlyNamed (cases.map (·.toListedCase)) opt.kind c.name i →
      (opt.includeDeath = true ∨ hasTagCi c "death" = false →
        (selectCases cases opt).status = .ok ∧ (selectCases cases opt).idxs = [i]) ∧
      (¬(opt.includeDeath = true ∨ hasTagCi c "death" = false) →
        (selectCases cases opt).status = .deathExcludedExact ∧ (selectCases cases opt).idxs = [])) ∧
    (¬OnlyNamed (cases.map (·.toListedCase)) opt.kind c.name i → (selectCases cases opt).status = .ambiguous) := by
  have hlisted : (cases.map (·.toListedCase))[i]? = some c.toListedCase := by
    rw [List.getElem?_map, hc]
    rfl
  obtain ⟨honly, hselect⟩ | ⟨hothers, idxs, hselect⟩ := selectExact_name hlisted hkind
  · refine ⟨fun _ => ?_, fun hnot => absurd honly hnot⟩
    have hselect' : selectExact (cases.map (·.toListedCase)) opt.kind c.name = .selected i := hselect
    have hnames : nameMatches cases opt = .ok [i] := by
      simp [nameMatches, hexact, hselect']
    have hkept : [i].filter (holdsAt cases fun c => caseMatchesKind c.toListedCase opt.kind) = [i] := by
      simp [holdsAt, hc, hkind]
    cases hdeath : opt.includeDeath with
    | true => simp [selectCases, hnames, hkept, hdeath, finishSelection, splitSelectedCases_eq]
    | false =>
      cases htag : hasTagCi c "death" with
      | true => simp [selectCases, hnames, hkept, hdeath, holdsAt, hc, htag, hexact]
      | false => simp [selectCases, hnames, hkept, hdeath, holdsAt, hc, htag, finishSelection, splitSelectedCases_eq]
  · refine ⟨fun honly => absurd honly hothers, fun _ => ?_⟩
    have hselect' : selectExact (cases.map (·.toListedCase)) opt.kind c.name = .ambiguous idxs := hselect
    simp [selectCases, nameMatches, hexact, hselect']

theorem nameMatches_error {result : SelectionResult} (h : nameMatches cases opt = .error result) :
    result.status ≠ .ok := by
  unfold nameMatches at h
  split at h
  · split at h
    · cases h
    all_goals
      obtain rfl := Except.error.inj h
      exact nofun
  · cases h
  · cases h

theorem emptyStatus_ne_ok : emptyStatus opt ≠ .ok := by
  unfold emptyStatus
  split <;> exact nofun

theorem selectCases_ok (h : (selectCases cases opt).status = .ok) :
    ∃ filteredDeath, selectCases cases opt =
      finishSelection cases opt ((List.range cases.length).filter (holdsAt cases (wanted cases opt))) filteredDeath := by
  cases hnames : nameMatches cases opt with
  | error result =>
    rw [selectCases, hnames] at h
    exact absurd h (nameMatches_error hnames)
  | ok named =>
    simp only [selectCases, hnames] at h ⊢
    rw [nameMatches_filter hnames] at h ⊢
    split at h
    · exact absurd h emptyStatus_ne_ok
    rename_i hsome
    rw [if_neg hsome]
    cases hdeath : opt.includeDeath with
    | true =>
      have hall : wanted cases opt = fun c => nameRule cases opt c && caseMatchesKind c.toListedCase opt.kind := by
        funext c
        rw [wanted, hdeath, Bool.true_or, Bool.and_true]
      exact ⟨0, by rw [if_pos rfl, hall]⟩
    | false =>
      simp only [hdeath, Bool.false_eq_true, if_false] at h ⊢
      split at h
      · dsimp only at h
        split at h <;> cases h
      · rename_i hkept
        rw [if_neg hkept]
        refine ⟨_, congrArg₂ _ ?_ rfl⟩
        rw [List.filter_filter]
        refine List.filter_congr fun i hi => ?_
        have hlt := List.mem_range.mp hi
        simp [holdsAt, List.getElem?_eq_getElem hlt, wanted, hdeath, Bool.and_comm]

-- ---------------------------------------------------------------------------
-- The kinds
-- ---------------------------------------------------------------------------

def runKind (c : ListedCase) : KindFilter :=
  if c.isBenchmark then .bench else if c.isJitter then .jitter else .test

theorem runKind_ne_all (c : ListedCase) : runKind c ≠ .all := by
  unfold runKind
  split
  · exact nofun
  · split <;> exact nofun

theorem runKind_of_matches {c : ListedCase} {kind : KindFilter} (hapart : ¬(c.isBenchmark = true ∧ c.isJitter = true))
    (hkind : kind ≠ .all) (h : caseMatchesKind c kind = true) : runKind c = kind := by
  cases kind with
  | all => exact absurd rfl hkind
  | test =>
    simp only [caseMatchesKind, Bool.and_eq_true, Bool.not_eq_true'] at h
    simp [runKind, h.1, h.2]
  | bench => exact if_pos h
  | jitter =>
    have hbench : ¬c.isBenchmark = true := fun hbench => hapart ⟨hbench, h⟩
    rw [runKind, if_neg hbench, if_pos (show c.isJitter = true from h)]

theorem inventoryKind_eq {c : ListedCase} (hapart : ¬(c.isBenchmark = true ∧ c.isJitter = true)) :
    kindToString (runKind c) = inventoryKind c := by
  unfold runKind inventoryKind
  cases hbench : c.isBenchmark with
  | true =>
    have hjitter : ¬c.isJitter = true := fun hjitter => hapart ⟨hbench, hjitter⟩
    simp [hjitter, kindToString]
  | false => cases c.isJitter <;> rfl

theorem kindToString_injective : Function.Injective kindToString := by
  intro kind kind' h
  revert h
  cases kind <;> cases kind' <;> decide

theorem idxs_finishSelection (idxs : List Nat) (filteredDeath : Nat) :
    (finishSelection cases opt idxs filteredDeath).idxs = idxs := by
  rw [finishSelection, splitSelectedCases_eq]

theorem kindIdxs_finishSelection (idxs : List Nat) (filteredDeath : Nat) {kind : KindFilter} (hkind : kind ≠ .all) :
    (finishSelection cases opt idxs filteredDeath).kindIdxs kind =
      idxs.filter (holdsAt cases fun c => runKind c.toListedCase = kind) := by
  have htest : (fun c : TaggedCase => !c.isBenchmark && !c.isJitter) = fun c => decide (runKind c.toListedCase = .test) := by
    funext c
    cases hbench : c.isBenchmark <;> cases hjitter : c.isJitter <;> simp [runKind, hbench, hjitter]
  have hbench : (fun c : TaggedCase => c.isBenchmark) = fun c => decide (runKind c.toListedCase = .bench) := by
    funext c
    cases hbench : c.isBenchmark <;> cases hjitter : c.isJitter <;> simp [runKind, hbench, hjitter]
  have hjitter : (fun c : TaggedCase => !c.isBenchmark && c.isJitter) =
      fun c => decide (runKind c.toListedCase = .jitter) := by
    funext c
    cases hbench : c.isBenchmark <;> cases hjitter : c.isJitter <;> simp [runKind, hbench, hjitter]
  rw [finishSelection, splitSelectedCases_eq]
  cases kind with
  | all => exact absurd rfl hkind
  | test => simp only [SelectionResult.kindIdxs, List.nil_append, htest]
  | bench => simp only [SelectionResult.kindIdxs, List.nil_append, hbench]
  | jitter => simp only [SelectionResult.kindIdxs, List.nil_append, hjitter]

theorem mem_kindIdxs_finishSelection {idxs : List Nat} {filteredDeath i : Nat} {kind : KindFilter} {c : TaggedCase}
    (hkind : kind ≠ .all) (hc : cases[i]? = some c) :
    i ∈ (finishSelection cases opt idxs filteredDeath).kindIdxs kind ↔ i ∈ idxs ∧ runKind c.toListedCase = kind := by
  rw [kindIdxs_finishSelection _ _ hkind, mem_filter_holdsAt hc, decide_eq_true_eq]

/-- A selection agrees with the kind asked for and with the inventory exactly when no
case asked for is a benchmark and a jitter at once. -/
theorem selected_kinds_agree_iff (h : (selectCases cases opt).status = .ok) :
    KindsAgree cases opt (selectCases cases opt) ↔
      ∀ c ∈ cases, wanted cases opt c = true → ¬(c.isBenchmark = true ∧ c.isJitter = true) := by
  obtain ⟨filteredDeath, hresult⟩ := selectCases_ok h
  rw [hresult]
  constructor
  · rintro hagree c hc hwanted ⟨hbench, hjitter⟩
    obtain ⟨i, hi⟩ := List.mem_iff_getElem?.mp hc
    have hmem : i ∈ (List.range cases.length).filter (holdsAt cases (wanted cases opt)) :=
      (mem_filter_holdsAt hi).mpr ⟨List.mem_range.mpr (List.getElem?_eq_some_iff.mp hi).1, hwanted⟩
    obtain ⟨kind, hname, hkind⟩ := hagree.inventory i (by rwa [idxs_finishSelection]) c hi
    rw [inventoryKind, if_pos hjitter] at hname
    obtain rfl : kind = .jitter := kindToString_injective hname
    -- the split looks at the benchmark flag first
    have hrun := ((mem_kindIdxs_finishSelection (by decide) hi).mp hkind).2
    rw [runKind, if_pos hbench] at hrun
    cases hrun
  · intro hapart
    have hcase : ∀ i ∈ (List.range cases.length).filter (holdsAt cases (wanted cases opt)),
        ∃ c, cases[i]? = some c ∧ wanted cases opt c = true ∧ ¬(c.isBenchmark = true ∧ c.isJitter = true) := by
      intro i hi
      obtain ⟨hrange, hholds⟩ := List.mem_filter.mp hi
      have hc := List.getElem?_eq_getElem (List.mem_range.mp hrange)
      rw [holdsAt, hc] at hholds
      exact ⟨_, hc, hholds, hapart _ (List.getElem_mem _) hholds⟩
    refine
      { exact := idxs_finishSelection ..
        ordered := ?ordered
        apart := ?apart
        together := ?together
        asked := ?asked
        inventory := ?inventory }
    case ordered =>
      intro kind
      by_cases hkind : kind = .all
      · subst hkind
        exact List.Sublist.refl _
      · rw [kindIdxs_finishSelection _ _ hkind, idxs_finishSelection]
        exact List.filter_sublist
    case apart =>
      intro kind kind' hkind hkind' hne i hi hi'
      rw [kindIdxs_finishSelection _ _ hkind] at hi
      obtain ⟨c, hc, -⟩ := hcase i (List.mem_filter.mp hi).1
      have hrun := ((mem_filter_holdsAt hc).mp hi).2
      have hrun' := ((mem_kindIdxs_finishSelection hkind' hc).mp hi').2
      exact hne ((of_decide_eq_true hrun).symm.trans hrun')
    case together =>
      intro i hi
      rw [idxs_finishSelection] at hi
      obtain ⟨c, hc, -⟩ := hcase i hi
      exact ⟨runKind c.toListedCase, runKind_ne_all _,
        (mem_kindIdxs_finishSelection (runKind_ne_all _) hc).mpr ⟨hi, rfl⟩⟩
    case asked =>
      intro hkind i hi
      rw [idxs_finishSelection] at hi
      obtain ⟨c, hc, hwanted, hnot⟩ := hcase i hi
      simp only [wanted, Bool.and_eq_true] at hwanted
      exact (mem_kindIdxs_finishSelection hkind hc).mpr ⟨hi, runKind_of_matches hnot hkind hwanted.1.2⟩
    case inventory =>
      intro i hi c hc
      rw [idxs_finishSelection] at hi
      obtain ⟨c', hc', -, hnot⟩ := hcase i hi
      obtain rfl : c' = c := Option.some.inj (hc'.symm.trans hc)
      exact ⟨runKind c'.toListedCase, inventoryKind_eq hnot,
        (mem_kindIdxs_finishSelection (runKind_ne_all _) hc).mpr ⟨hi, rfl⟩⟩

def bothKinds : TaggedCase := { name := "suite/both", isBenchmark := true, isJitter := true }

def latencyJitter : TaggedCase := { name := "suite/latency", isJitter := true }

theorem jitter_kinds_agree :
    KindsAgree [latencyJitter] { kind := .jitter } (selectCases [latencyJitter] { kind := .jitter }) :=
  (selected_kinds_agree_iff (by decide)).mpr (by decide)

/-- With `--kind=jitter` the case is selected and runs as a benchmark. -/
theorem jitter_selects_benchmark :
    (selectCases [bothKinds] { kind := .jitter }).status = .ok ∧
      (selectCases [bothKinds] { kind := .jitter }).benchIdxs = [0] ∧
      ¬KindsAgree [bothKinds] { kind := .jitter } (selectCases [bothKinds] { kind := .jitter }) := by
  refine ⟨by decide, by decide, fun hagree => ?_⟩
  have hjitter := hagree.asked nofun 0 (by decide)
  revert hjitter
  decide

end

end Gentest.Runner.Selector
