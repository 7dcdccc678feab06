import Gentest.Runner.AsyncExecutor

/-!
# Selected cases and the plan of a run

`split_selected_cases` and `build_suite_execution_plan`. The random engine and
the hash of a text are parameters; a shuffle returns a permutation of what it
is given.
-/

namespace Gentest.Runner

open AsyncExecutor (FixtureGroupPlan SuiteExecutionPlan planned)

inductive FixtureLifetime
  | none
  | memberEphemeral
  | memberSuite
  | memberGlobal
  deriving DecidableEq, Repr

/-- A registered case with what the selection and the plan read of it. -/
structure RegisteredCase extends Case where
  isBenchmark : Bool := false
  isJitter : Bool := false
  fixtureLifetime : FixtureLifetime := .none
  deriving DecidableEq, Repr

structure SelectionResult where
  testIdxs : List Nat := []
  benchIdxs : List Nat := []
  jitterIdxs : List Nat := []
  deriving DecidableEq, Repr

variable (cases : Nat → RegisteredCase)

def splitSelectedCases (idxs : List Nat) : SelectionResult where
  benchIdxs := idxs.filter fun i => (cases i).isBenchmark
  jitterIdxs := idxs.filter fun i => !(cases i).isBenchmark && (cases i).isJitter
  testIdxs := idxs.filter fun i => !(cases i).isBenchmark && !(cases i).isJitter

/-- `std::hash<std::string_view>` and `std::shuffle` on a seeded engine. -/
structure Shuffle where
  hash : String → UInt64
  order : UInt64 → List Nat → List Nat
  perm : ∀ seed idxs, (order seed idxs).Perm idxs

def Shuffle.withSeed (shuffle : Shuffle) (seed : UInt64) (idxs : List Nat) : List Nat :=
  if idxs.length ≤ 1 then idxs else shuffle.order seed idxs

structure SuitePlanBuilder where
  suite : String
  plan : SuiteExecutionPlan := {}
  deriving DecidableEq, Repr

/-- `try_emplace`: changes the entry with the key, or a new one at the end. -/
def emplace (key : α → String) (k : String) (new : α) (f : α → α) : List α → List α
  | [] => [f new]
  | a :: as => if key a = k then f a :: as else a :: emplace key k new f as

def appendFixtureGroupCase (fixture : String) (i : Nat) (groups : List FixtureGroupPlan) : List FixtureGroupPlan :=
  emplace FixtureGroupPlan.fixture fixture ⟨fixture, []⟩ (fun group => { group with idxs := group.idxs ++ [i] }) groups

def SuitePlanBuilder.add (i : Nat) (builder : SuitePlanBuilder) : SuitePlanBuilder :=
  let t := cases i
  let plan := builder.plan
  match t.fixtureLifetime with
  | .none | .memberEphemeral => { builder with plan := { plan with freeLike := plan.freeLike ++ [i] } }
  | .memberSuite =>
    { builder with plan := { plan with suiteGroups := appendFixtureGroupCase t.fixture i plan.suiteGroups } }
  | .memberGlobal =>
    { builder with plan := { plan with globalGroups := appendFixtureGroupCase t.fixture i plan.globalGroups } }

def planBuilders (idxs : List Nat) : List SuitePlanBuilder :=
  idxs.foldl (fun builders i =>
    emplace SuitePlanBuilder.suite (cases i).suite ⟨(cases i).suite, {}⟩ (SuitePlanBuilder.add cases i) builders) []

def shufflePlan (shuffle : Shuffle) (baseSeed : UInt64) (builder : SuitePlanBuilder) : SuiteExecutionPlan :=
  let suiteSeed := baseSeed ^^^ (shuffle.hash builder.suite <<< 1)
  let shuffleGroup := fun group : FixtureGroupPlan =>
    { group with idxs := shuffle.withSeed (suiteSeed + shuffle.hash group.fixture) group.idxs }
  { freeLike := shuffle.withSeed suiteSeed builder.plan.freeLike
    suiteGroups := builder.plan.suiteGroups.map shuffleGroup
    globalGroups := builder.plan.globalGroups.map shuffleGroup }

def buildSuiteExecutionPlan (idxs : List Nat) (shuffle : Option (Shuffle × UInt64)) : List SuiteExecutionPlan :=
  (planBuilders cases idxs).map fun builder =>
    match shuffle with
    | some (shuffle, baseSeed) => shufflePlan shuffle baseSeed builder
    | none => builder.plan

-- ---------------------------------------------------------------------------
-- Every selected test is planned once
-- ---------------------------------------------------------------------------

theorem emplace_perm {q : α → String} {k : String} {n : α} {f : α → α} {g : α → List Nat} {i : Nat}
    (hnew : g n = []) (hf : ∀ a, (g (f a)).Perm (i :: g a)) (as : List α) :
    ((emplace q k n f as).flatMap g).Perm (i :: as.flatMap g) := by
  induction as with
  | nil => simpa [emplace, hnew] using hf n
  | cons a as ih =>
    unfold emplace
    split
    · simpa using (hf a).append_right (as.flatMap g)
    · simpa using (ih.append_left (g a)).trans List.perm_middle

theorem appendFixtureGroupCase_perm (fixture : String) (i : Nat) (groups : List FixtureGroupPlan) :
    ((appendFixtureGroupCase fixture i groups).flatMap FixtureGroupPlan.idxs).Perm
      (i :: groups.flatMap FixtureGroupPlan.idxs) :=
  emplace_perm rfl (fun group => List.perm_append_singleton i group.idxs) groups

theorem add_perm (i : Nat) (builder : SuitePlanBuilder) :
    (SuitePlanBuilder.add cases i builder).plan.cases.Perm (i :: builder.plan.cases) := by
  unfold SuitePlanBuilder.add SuiteExecutionPlan.cases
  dsimp only
  cases (cases i).fixtureLifetime with
  | none | memberEphemeral =>
    rw [List.append_assoc]
    exact List.perm_middle
  | memberSuite =>
    have hgroups := appendFixtureGroupCase_perm (cases i).fixture i builder.plan.suiteGroups
    simp only [List.flatMap_append]
    exact ((hgroups.append_right _).append_left _).trans List.perm_middle
  | memberGlobal =>
    have hgroups := appendFixtureGroupCase_perm (cases i).fixture i builder.plan.globalGroups
    simp only [List.flatMap_append]
    refine ((hgroups.append_left _).append_left _).trans ?_
    exact (List.perm_middle.append_left _).trans List.perm_middle

theorem planBuilders_perm (idxs : List Nat) :
    ((planBuilders cases idxs).flatMap fun builder => builder.plan.cases).Perm idxs := by
  unfold planBuilders
  suffices h : ∀ builders : List SuitePlanBuilder,
      ((idxs.foldl (fun builders i => emplace SuitePlanBuilder.suite (cases i).suite ⟨(cases i).suite, {}⟩
        (SuitePlanBuilder.add cases i) builders) builders).flatMap fun builder => builder.plan.cases).Perm
        ((builders.flatMap fun builder => builder.plan.cases) ++ idxs) by
    simpa using h []
  induction idxs with
  | nil => intro builders; simp
  | cons i idxs ih =>
    intro builders
    rw [List.foldl_cons]
    refine (ih _).trans ?_
    have hadd := emplace_perm (q := SuitePlanBuilder.suite) (k := (cases i).suite) (n := ⟨(cases i).suite, {}⟩)
      (g := fun builder => builder.plan.cases) rfl (add_perm cases i) builders
    exact (hadd.append_right idxs).trans List.perm_middle.symm

theorem withSeed_perm (shuffle : Shuffle) (seed : UInt64) (idxs : List Nat) :
    (shuffle.withSeed seed idxs).Perm idxs := by
  unfold Shuffle.withSeed
  split
  · exact List.Perm.refl _
  · exact shuffle.perm seed idxs

theorem flatMap_idxs_perm {f : FixtureGroupPlan → FixtureGroupPlan} (h : ∀ group, (f group).idxs.Perm group.idxs)
    (groups : List FixtureGroupPlan) :
    ((groups.map f).flatMap FixtureGroupPlan.idxs).Perm (groups.flatMap FixtureGroupPlan.idxs) := by
  induction groups with
  | nil => exact List.Perm.refl _
  | cons group groups ih => simpa using (h group).append ih

theorem shufflePlan_perm (shuffle : Shuffle) (baseSeed : UInt64) (builder : SuitePlanBuilder) :
    (shufflePlan shuffle baseSeed builder).cases.Perm builder.plan.cases := by
  unfold shufflePlan SuiteExecutionPlan.cases
  simp only [List.flatMap_append]
  refine (withSeed_perm shuffle _ _).append (List.Perm.append ?_ ?_)
  · exact flatMap_idxs_perm (fun group => withSeed_perm shuffle _ group.idxs) _
  · exact flatMap_idxs_perm (fun group => withSeed_perm shuffle _ group.idxs) _

/-- The plan holds every selected case once, whatever the shuffle. -/
theorem planned_perm (idxs : List Nat) (shuffle : Option (Shuffle × UInt64)) :
    (planned (buildSuiteExecutionPlan cases idxs shuffle)).Perm idxs := by
  refine List.Perm.trans ?_ (planBuilders_perm cases idxs)
  unfold planned buildSuiteExecutionPlan
  induction planBuilders cases idxs with
  | nil => exact List.Perm.refl _
  | cons builder builders ih =>
    rw [List.map_cons, List.flatMap_cons, List.flatMap_cons]
    refine List.Perm.append ?_ ih
    cases shuffle with
    | none => exact List.Perm.refl _
    | some shuffle => exact shufflePlan_perm shuffle.1 shuffle.2 builder

end Gentest.Runner
