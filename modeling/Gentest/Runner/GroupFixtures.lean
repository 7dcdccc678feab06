import Gentest.Codegen.FixtureResolution
import Gentest.Fixture.NearestSuite
import Gentest.Runner.PlanIndices

/-!
# One fixture for a group

`run_groups` asks for a fixture once, with the first case of a group. The cases
of a group have one suite, one lifetime and one fixture name, so that each of
them would have been given the same fixture.
-/

namespace Gentest.Runner.GroupFixtures

open Codegen (EmittedCase acquireCaseFixture)
open Fixture
open PlanIndices

/-- What `acquire_case_fixture` reads of a case. -/
def asked (c : RegisteredCase) : EmittedCase := ⟨c.fixture, c.fixtureLifetime, c.suite⟩

/-- What the cases of a group run with: a fixture, or the reason why they are
skipped. -/
def groupContexts (reg : SharedFixtureRegistry) (cases : Nat → RegisteredCase) (group : FixtureGroupPlan) :
    List (Nat × Except String (Option Address)) :=
  match group.idxs with
  | [] => []
  | front :: _ => group.idxs.map fun i => (i, acquireCaseFixture reg (asked (cases front)))

def caseContexts (reg : SharedFixtureRegistry) (cases : Nat → RegisteredCase) (group : FixtureGroupPlan) :
    List (Nat × Except String (Option Address)) :=
  group.idxs.map fun i => (i, acquireCaseFixture reg (asked (cases i)))

/-- What `get_shared_fixture` answers for the entry it has selected. -/
def answer (reg : SharedFixtureRegistry) : Option SharedFixtureEntry → Option Address × String
  | none => (none, if reg.teardownInProgress then "fixture teardown in progress" else "fixture not registered")
  | some e =>
    if e.failed then (none, e.error)
    else if e.initializing then (none, "fixture initialization in progress")
    else if !e.initialized then
      (none, if reg.teardownInProgress then "fixture teardown in progress" else "fixture not initialized")
    else
      match e.instancePtr with
      | none => (none, "fixture allocation returned null")
      | some p => (some p, "")

/-- The lookup of a request: what it considers, what it selects, what it answers. -/
structure FindsNearest (reg : SharedFixtureRegistry) (scope : SharedFixtureScope) (suite name : String) : Prop where
  considers : ∀ e ∈ reg.entries, e.serves scope suite name = true ↔
    e.scope = scope ∧ e.fixtureName = name ∧ Encloses e.suite suite
  selects : ∀ i e, selectSharedFixture reg scope suite name = some (i, e) ↔
    reg.entries[i]? = some e ∧ Nearest reg scope suite name e
  misses : selectSharedFixture reg scope suite name = none ↔ ∀ e, ¬Considered reg scope suite name e
  unique : ∀ e other, Nearest reg scope suite name e → Nearest reg scope suite name other → e = other
  answers : getSharedFixture reg scope suite name =
    if reg.registrationError then (none, reg.registrationErrors.headD "fixture registration failed")
    else answer reg ((selectSharedFixture reg scope suite name).map Prod.snd)

theorem findsNearest_of_sorted {reg : SharedFixtureRegistry} (hsorted : SortedEntries reg.entries)
    (scope : SharedFixtureScope) (suite name : String) : FindsNearest reg scope suite name where
  considers := fun _ _ => serves_iff
  selects := fun _ _ => select_iff_nearest hsorted
  misses := select_none_iff
  unique := fun _ _ => Nearest.unique
  answers := by
    unfold getSharedFixture
    cases selectSharedFixture reg scope suite name <;> rfl

variable {cases : Nat → RegisteredCase} {idxs : List Nat} {shuffle : Bool} {plan : SuiteExecutionPlan}

theorem asked_of_group {group : FixtureGroupPlan} {i : Nat}
    (hplan : PlansCases cases shuffle (ownCases cases idxs plan.suite) plan)
    (hgroup : group ∈ plan.suiteGroups ++ plan.globalGroups) (hi : i ∈ group.idxs) :
    asked (cases i) = ⟨group.fixture, group.fixtureLifetime, plan.suite⟩ := by
  have hfields : i ∈ ownCases cases idxs plan.suite ∧ (cases i).fixtureLifetime = group.fixtureLifetime ∧
      (cases i).fixture = group.fixture := by
    rcases List.mem_append.mp hgroup with hgroup | hgroup
    · exact hplan.suiteGroups.case_of_mem hgroup hi
    · exact hplan.globalGroups.case_of_mem hgroup hi
  obtain ⟨hown, hlifetime, hfixture⟩ := hfields
  have hsuite : (cases i).suite = plan.suite := of_decide_eq_true (List.mem_filter.mp hown).2
  rw [asked, hsuite, hlifetime, hfixture]

theorem groupContexts_eq {group : FixtureGroupPlan} (reg : SharedFixtureRegistry)
    (hplan : PlansCases cases shuffle (ownCases cases idxs plan.suite) plan)
    (hgroup : group ∈ plan.suiteGroups ++ plan.globalGroups) :
    groupContexts reg cases group = caseContexts reg cases group := by
  unfold groupContexts caseContexts
  split
  · rename_i hnone
    rw [hnone, List.map_nil]
  · rename_i front rest hidxs
    have hfront := asked_of_group hplan hgroup (i := front) (by rw [hidxs]; exact List.mem_cons_self ..)
    refine List.map_congr_left fun i hi => ?_
    rw [hfront, asked_of_group hplan hgroup hi]

/-- A request is answered with the fixture of the nearest enclosing suite,
whatever the order of the registrations, unless one of them was refused; and
the cases of a group would all be given the fixture of its first case. -/
theorem get_shared_fixture_nearest (calls : List (SharedFixtureRunGate × Registration)) (scope : SharedFixtureScope)
    (suite name : String) :
    FindsNearest (registerEach calls) scope suite name ∧
    (∀ calls', calls'.Perm calls →
      (registerEach calls').registrationError = (registerEach calls).registrationError ∧
      ((registerEach calls).registrationError = false →
        selectSharedFixture (registerEach calls') scope suite name =
          selectSharedFixture (registerEach calls) scope suite name)) ∧
    ∀ (reg : SharedFixtureRegistry) (cases : Nat → RegisteredCase) (idxs : List Nat) (shuffle : Bool) (sh : Shuffle)
      (baseSeed : UInt64), ∀ plan ∈ PlanIndices.buildSuiteExecutionPlan cases idxs shuffle sh baseSeed,
        ∀ group ∈ plan.suiteGroups ++ plan.globalGroups,
          (∀ i ∈ group.idxs, asked (cases i) = ⟨group.fixture, group.fixtureLifetime, plan.suite⟩) ∧
          groupContexts reg cases group = caseContexts reg cases group := by
  refine ⟨findsNearest_of_sorted (registerEach_sorted calls) scope suite name, ?_, ?_⟩
  · intro calls' hperm
    obtain ⟨herror, hsame⟩ := registerEach_perm hperm.symm
    exact ⟨herror.symm, fun hquiet => by rw [hsame hquiet]⟩
  · intro reg cases idxs shuffle sh baseSeed plan hplan group hgroup
    have hbuckets := buildSuiteExecutionPlan_buckets cases shuffle idxs sh baseSeed plan hplan
    exact ⟨fun i hi => asked_of_group hbuckets hgroup hi, groupContexts_eq reg hbuckets hgroup⟩

/-- Two registrations with different factories: whichever comes second is
refused, and neither entry is looked at. -/
theorem refused_registration_hides_fixtures :
    let database := fun create : Address => (({}, ⟨.suite, "io", "db", some create, none, none⟩) :
      SharedFixtureRunGate × Registration)
    let reg := registerEach [database 1, database 2]
    (selectSharedFixture reg .suite "io/files" "db").map Prod.fst = some 0 ∧
    getSharedFixture reg .suite "io/files" "db" =
      (none, "fixture 'db' registered multiple times with conflicting callbacks") ∧
    getSharedFixture reg .suite "io/files" "db" ≠
      answer reg ((selectSharedFixture reg .suite "io/files" "db").map Prod.snd) ∧
    selectSharedFixture (registerEach [database 2, database 1]) .suite "io/files" "db" ≠
      selectSharedFixture reg .suite "io/files" "db" := by
  decide

end Gentest.Runner.GroupFixtures
