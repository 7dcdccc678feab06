import Gentest.Lib.Grouping
import Gentest.Lib.IndexedGroups
import Gentest.Runner.TestPlan
import Mathlib.Data.List.Perm.Basic

/-!
# Where the plan puts each case

`build_suite_execution_plan` with its two levels of vectors and maps into them:
the plan of each suite, and the fixture groups of a plan. A case goes to the
position its suite and its fixture are mapped to.

The plan is a grouped permutation of the selection: one block for the cases of a
suite without shared fixture, one for each fixture of the suite, one for each
global fixture, and a shuffle moves cases within blocks only.
-/

namespace Gentest.Runner.PlanIndices

open IndexedGroups (Table collect entryOf collect_entries Contiguous contiguous_flatMap nodup_eraseDups)

structure FixtureGroupPlan where
  fixture : String
  fixtureLifetime : FixtureLifetime
  idxs : List Nat
  deriving DecidableEq, Repr

structure SuiteExecutionPlan where
  suite : String
  freeLike : List Nat := []
  suiteGroups : List FixtureGroupPlan := []
  globalGroups : List FixtureGroupPlan := []
  deriving DecidableEq, Repr

/-- The groups of the plan with `suite_group_indices` and `global_group_indices`. -/
structure SuitePlanBuilder where
  suite : String
  freeLike : List Nat := []
  suiteGroups : Table FixtureGroupPlan.fixture := .empty
  globalGroups : Table FixtureGroupPlan.fixture := .empty

def FixtureGroupPlan.push (i : Nat) (group : FixtureGroupPlan) : FixtureGroupPlan := { group with idxs := group.idxs ++ [i] }

@[simp] theorem push_fixture (i : Nat) (group : FixtureGroupPlan) : (group.push i).fixture = group.fixture := rfl

def appendFixtureGroupCase (groups : Table FixtureGroupPlan.fixture) (fixture : String) (lifetime : FixtureLifetime)
    (i : Nat) : Table FixtureGroupPlan.fixture :=
  groups.emplace fixture ⟨fixture, lifetime, []⟩ (FixtureGroupPlan.push i) rfl (push_fixture i)

variable (cases : Nat → RegisteredCase)

def SuitePlanBuilder.add (i : Nat) (builder : SuitePlanBuilder) : SuitePlanBuilder :=
  let t := cases i
  if t.fixtureLifetime = .none ∨ t.fixtureLifetime = .memberEphemeral then
    { builder with freeLike := builder.freeLike ++ [i] }
  else if t.fixtureLifetime = .memberSuite then
    { builder with suiteGroups := appendFixtureGroupCase builder.suiteGroups t.fixture t.fixtureLifetime i }
  else { builder with globalGroups := appendFixtureGroupCase builder.globalGroups t.fixture t.fixtureLifetime i }

theorem add_suite (i : Nat) (builder : SuitePlanBuilder) : (builder.add cases i).suite = builder.suite := by
  simp only [SuitePlanBuilder.add]
  split
  · rfl
  · split <;> rfl

/-- The builders with `suite_indices`. -/
def planBuilders (idxs : List Nat) : Table SuitePlanBuilder.suite :=
  collect (fun i => (cases i).suite) (fun suite => { suite }) (SuitePlanBuilder.add cases) (fun _ => rfl)
    (add_suite cases) idxs

/-- The plan of a builder, shuffled if asked for. -/
def SuitePlanBuilder.finish (shuffle : Bool) (sh : Shuffle) (baseSeed : UInt64) (builder : SuitePlanBuilder) :
    SuiteExecutionPlan :=
  if shuffle then
    let suiteSeed := baseSeed ^^^ (sh.hash builder.suite <<< 1)
    let shuffleGroup := fun group : FixtureGroupPlan =>
      { group with idxs := sh.withSeed (suiteSeed + sh.hash group.fixture) group.idxs }
    { suite := builder.suite
      freeLike := sh.withSeed suiteSeed builder.freeLike
      suiteGroups := builder.suiteGroups.entries.map shuffleGroup
      globalGroups := builder.globalGroups.entries.map shuffleGroup }
  else
    { suite := builder.suite
      freeLike := builder.freeLike
      suiteGroups := builder.suiteGroups.entries
      globalGroups := builder.globalGroups.entries }

def buildSuiteExecutionPlan (idxs : List Nat) (shuffle : Bool) (sh : Shuffle) (baseSeed : UInt64) :
    List SuiteExecutionPlan :=
  (planBuilders cases idxs).entries.map (SuitePlanBuilder.finish shuffle sh baseSeed)

-- ---------------------------------------------------------------------------
-- The plans the executors run
-- ---------------------------------------------------------------------------

def FixtureGroupPlan.forget (group : FixtureGroupPlan) : AsyncExecutor.FixtureGroupPlan := ⟨group.fixture, group.idxs⟩

def SuiteExecutionPlan.forget (plan : SuiteExecutionPlan) : AsyncExecutor.SuiteExecutionPlan where
  freeLike := plan.freeLike
  suiteGroups := plan.suiteGroups.map FixtureGroupPlan.forget
  globalGroups := plan.globalGroups.map FixtureGroupPlan.forget

def SuitePlanBuilder.forget (builder : SuitePlanBuilder) : Runner.SuitePlanBuilder where
  suite := builder.suite
  plan :=
    { freeLike := builder.freeLike
      suiteGroups := builder.suiteGroups.entries.map FixtureGroupPlan.forget
      globalGroups := builder.globalGroups.entries.map FixtureGroupPlan.forget }

theorem emplace_of_nodup {key : α → String} {k : String} {new : α} {f : α → α} {as : List α}
    (hnodup : (as.map key).Nodup) :
    Runner.emplace key k new f as =
      if k ∈ as.map key then as.map fun a => if key a = k then f a else a else as ++ [f new] := by
  induction as with
  | nil => rfl
  | cons a as ih =>
    rw [List.map_cons, List.nodup_cons] at hnodup
    unfold Runner.emplace
    split
    · rename_i heq
      have hothers : ∀ b ∈ as, ¬key b = k := by
        rintro b hb rfl
        exact hnodup.1 (heq ▸ List.mem_map_of_mem hb)
      have hkeep : (as.map fun b => if key b = k then f b else b) = as :=
        (List.map_congr_left fun b hb => if_neg (hothers b hb)).trans (List.map_id as)
      simp [heq, hkeep]
    · rename_i hne
      rw [ih hnodup.2]
      by_cases hmem : k ∈ as.map key
      · simp only [List.map_cons, List.mem_cons, hmem, or_true, if_true, hne, if_false]
      · simp only [List.map_cons, List.mem_cons, hmem, or_false, Ne.symm hne, if_false, List.cons_append]

theorem emplace_map_forget {key : α → String} {key' : β → String} {k : String} {new : α} {f : α → α} {f' : β → β}
    {g : α → β} (hkey : ∀ a, key' (g a) = key a) (hf : ∀ a, g (f a) = f' (g a)) (as : List α) :
    (Runner.emplace key k new f as).map g = Runner.emplace key' k (g new) f' (as.map g) := by
  induction as with
  | nil => simp [Runner.emplace, hf]
  | cons a as ih =>
    simp only [Runner.emplace, List.map_cons, hkey]
    split
    · simp [hf]
    · simp [ih]

/-- A table finds the entry the search through the entries finds. -/
theorem table_emplace_forget {key : α → String} {key' : β → String} {t : Table key} {k : String} {new : α}
    {f : α → α} {f' : β → β} (g : α → β) {hnew : key new = k} {hf : ∀ a, key (f a) = key a}
    (hkey : ∀ a, key' (g a) = key a) (hg : ∀ a, g (f a) = f' (g a)) :
    (t.emplace k new f hnew hf).entries.map g = Runner.emplace key' k (g new) f' (t.entries.map g) := by
  rw [Table.emplace_entries, ← emplace_of_nodup t.keys_nodup, emplace_map_forget hkey hg]

theorem add_forget (i : Nat) (builder : SuitePlanBuilder) :
    (builder.add cases i).forget = Runner.SuitePlanBuilder.add cases i builder.forget := by
  have happend : ∀ (groups : Table FixtureGroupPlan.fixture) (lifetime : FixtureLifetime),
      (appendFixtureGroupCase groups (cases i).fixture lifetime i).entries.map FixtureGroupPlan.forget =
        Runner.appendFixtureGroupCase (cases i).fixture i (groups.entries.map FixtureGroupPlan.forget) := by
    intro groups lifetime
    unfold appendFixtureGroupCase Runner.appendFixtureGroupCase
    refine table_emplace_forget FixtureGroupPlan.forget ?_ ?_
    · exact fun _ => rfl
    · exact fun _ => rfl
  unfold SuitePlanBuilder.add Runner.SuitePlanBuilder.add SuitePlanBuilder.forget
  cases hlife : (cases i).fixtureLifetime <;> simp [hlife, happend]

theorem planBuilders_forget (idxs : List Nat) :
    (planBuilders cases idxs).entries.map SuitePlanBuilder.forget = Runner.planBuilders cases idxs := by
  induction idxs using List.reverseRecOn with
  | nil => rfl
  | append_singleton idxs i ih =>
    have hcollect : planBuilders cases (idxs ++ [i]) =
        (planBuilders cases idxs).emplace (cases i).suite { suite := (cases i).suite } (SuitePlanBuilder.add cases i) rfl
          (add_suite cases i) := List.foldl_concat ..
    have hplain : Runner.planBuilders cases (idxs ++ [i]) =
        Runner.emplace Runner.SuitePlanBuilder.suite (cases i).suite ⟨(cases i).suite, {}⟩
          (Runner.SuitePlanBuilder.add cases i) (Runner.planBuilders cases idxs) := List.foldl_concat ..
    rw [hcollect, hplain, ← ih]
    refine table_emplace_forget SuitePlanBuilder.forget ?_ (add_forget cases i)
    exact fun _ => rfl

theorem buildSuiteExecutionPlan_forget (idxs : List Nat) (shuffle : Bool) (sh : Shuffle) (baseSeed : UInt64) :
    (buildSuiteExecutionPlan cases idxs shuffle sh baseSeed).map SuiteExecutionPlan.forget =
      Runner.buildSuiteExecutionPlan cases idxs (if shuffle then some (sh, baseSeed) else none) := by
  rw [buildSuiteExecutionPlan, Runner.buildSuiteExecutionPlan, ← planBuilders_forget, List.map_map, List.map_map]
  refine List.map_congr_left fun builder _ => ?_
  cases shuffle with
  | false => rfl
  | true => simp [SuitePlanBuilder.finish, SuiteExecutionPlan.forget, SuitePlanBuilder.forget, shufflePlan,
      FixtureGroupPlan.forget, Function.comp_def]

-- ---------------------------------------------------------------------------
-- What a builder has after the cases of its suite
-- ---------------------------------------------------------------------------

def isFree (t : RegisteredCase) : Bool := t.fixtureLifetime = .none ∨ t.fixtureLifetime = .memberEphemeral

def groupCases (lifetime : FixtureLifetime) (own : List Nat) (fixture : String) : List Nat :=
  own.filter fun i => (cases i).fixtureLifetime = lifetime ∧ (cases i).fixture = fixture

/-- The fixtures of a lifetime, in the order of their first cases. -/
def fixtureNames (lifetime : FixtureLifetime) (own : List Nat) : List String :=
  ((own.filter fun i => (cases i).fixtureLifetime = lifetime).map fun i => (cases i).fixture).eraseDups

def groupTable (lifetime : FixtureLifetime) (own : List Nat) : Table FixtureGroupPlan.fixture :=
  collect (fun i => (cases i).fixture) (fun fixture => ⟨fixture, lifetime, []⟩) FixtureGroupPlan.push (fun _ => rfl)
    push_fixture (own.filter fun i => (cases i).fixtureLifetime = lifetime)

theorem foldl_push (own : List Nat) (group : FixtureGroupPlan) :
    own.foldl (fun group i => group.push i) group = { group with idxs := group.idxs ++ own } := by
  induction own generalizing group with
  | nil => simp
  | cons i own ih => rw [List.foldl_cons, ih, FixtureGroupPlan.push, List.append_assoc, List.singleton_append]

theorem groupTable_entries (lifetime : FixtureLifetime) (own : List Nat) :
    (groupTable cases lifetime own).entries =
      (fixtureNames cases lifetime own).map fun fixture => ⟨fixture, lifetime, groupCases cases lifetime own fixture⟩ := by
  unfold groupTable fixtureNames groupCases
  rw [collect_entries]
  refine List.map_congr_left fun fixture _ => ?_
  rw [entryOf, foldl_push, List.nil_append, List.filter_filter]
  simp [and_comm]

theorem groupTable_concat (lifetime : FixtureLifetime) (own : List Nat) (i : Nat) :
    groupTable cases lifetime (own ++ [i]) =
      if (cases i).fixtureLifetime = lifetime then
        appendFixtureGroupCase (groupTable cases lifetime own) (cases i).fixture (cases i).fixtureLifetime i
      else groupTable cases lifetime own := by
  unfold groupTable
  rw [List.filter_append]
  split
  · rename_i heq
    subst heq
    simp [collect, appendFixtureGroupCase]
  · rename_i hne
    simp [hne]

theorem builder_of_own (suite : String) (own : List Nat) :
    own.foldl (fun builder i => builder.add cases i) ({ suite } : SuitePlanBuilder) =
      { suite
        freeLike := own.filter fun i => isFree (cases i)
        suiteGroups := groupTable cases .memberSuite own
        globalGroups := groupTable cases .memberGlobal own } := by
  induction own using List.reverseRecOn with
  | nil => rfl
  | append_singleton own i ih =>
    rw [List.foldl_concat, ih, List.filter_append, groupTable_concat, groupTable_concat]
    unfold SuitePlanBuilder.add isFree
    cases hlife : (cases i).fixtureLifetime <;> simp [hlife]

def ownCases (idxs : List Nat) (suite : String) : List Nat := idxs.filter fun i => (cases i).suite = suite

theorem planBuilders_entries (idxs : List Nat) :
    (planBuilders cases idxs).entries =
      (idxs.map fun i => (cases i).suite).eraseDups.map fun suite =>
        (ownCases cases idxs suite).foldl (fun builder i => builder.add cases i) ({ suite } : SuitePlanBuilder) := by
  rw [planBuilders, collect_entries]
  rfl

-- ---------------------------------------------------------------------------
-- The grouped permutation
-- ---------------------------------------------------------------------------

/-- The cases of a plan in the order they run in. -/
def SuiteExecutionPlan.inOrder (plan : SuiteExecutionPlan) : List Nat :=
  plan.freeLike ++ plan.suiteGroups.flatMap FixtureGroupPlan.idxs ++ plan.globalGroups.flatMap FixtureGroupPlan.idxs

def planned (plans : List SuiteExecutionPlan) : List Nat := plans.flatMap SuiteExecutionPlan.inOrder

/-- A suite and, unless the block is of free cases, the lifetime and the name of a fixture. -/
abbrev BlockKey := String × Option (FixtureLifetime × String)

def caseKey (i : Nat) : BlockKey :=
  ((cases i).suite, if isFree (cases i) then none else some ((cases i).fixtureLifetime, (cases i).fixture))

def SuiteExecutionPlan.blocks (plan : SuiteExecutionPlan) : List (BlockKey × List Nat) :=
  ((plan.suite, none), plan.freeLike) ::
    (plan.suiteGroups ++ plan.globalGroups).map fun group =>
      ((plan.suite, some (group.fixtureLifetime, group.fixture)), group.idxs)

/-- Free cases, then those of suite fixtures, then those of global fixtures. -/
def phase (t : RegisteredCase) : Nat :=
  match t.fixtureLifetime with
  | .none | .memberEphemeral => 0
  | .memberSuite => 1
  | .memberGlobal => 2

/-- The same cases, and in the same order unless they are shuffled. -/
def Keeps (shuffle : Bool) (idxs given : List Nat) : Prop := idxs.Perm given ∧ (shuffle = false → idxs = given)

structure GroupsCases (shuffle : Bool) (lifetime : FixtureLifetime) (own : List Nat) (groups : List FixtureGroupPlan) :
    Prop where
  fixtures : groups.map FixtureGroupPlan.fixture = fixtureNames cases lifetime own
  lifetimes : ∀ group ∈ groups, group.fixtureLifetime = lifetime
  members : ∀ group ∈ groups, Keeps shuffle group.idxs (groupCases cases lifetime own group.fixture)

structure PlansCases (shuffle : Bool) (own : List Nat) (plan : SuiteExecutionPlan) : Prop where
  freeLike : Keeps shuffle plan.freeLike (own.filter fun i => isFree (cases i))
  suiteGroups : GroupsCases cases shuffle .memberSuite own plan.suiteGroups
  globalGroups : GroupsCases cases shuffle .memberGlobal own plan.globalGroups

structure GroupedPermutation (idxs : List Nat) (shuffle : Bool) (plans : List SuiteExecutionPlan) : Prop where
  perm : (planned plans).Perm idxs
  /-- The suites in the order of their first cases, each once. -/
  suites : plans.map SuiteExecutionPlan.suite = (idxs.map fun i => (cases i).suite).eraseDups
  suitesOnce : (plans.map SuiteExecutionPlan.suite).Nodup
  /-- The groups in the order of their first cases, with the cases of their keys. -/
  buckets : ∀ plan ∈ plans, PlansCases cases shuffle (ownCases cases idxs plan.suite) plan
  blocksOnce : ((plans.flatMap SuiteExecutionPlan.blocks).map Prod.fst).Nodup
  /-- Suites, and the blocks of a suite, do not interleave. -/
  suitesContiguous : Contiguous (fun i => (cases i).suite) (planned plans)
  blocksContiguous : Contiguous (caseKey cases) (planned plans)
  phases : (planned plans).Pairwise fun i j => (cases i).suite = (cases j).suite → phase (cases i) ≤ phase (cases j)

theorem withSeed_keeps (shuffle : Shuffle) (seed : UInt64) (idxs : List Nat) : Keeps true (shuffle.withSeed seed idxs) idxs :=
  ⟨withSeed_perm shuffle seed idxs, fun h => nomatch h⟩

theorem groupTable_groups (lifetime : FixtureLifetime) (own : List Nat) :
    GroupsCases cases false lifetime own (groupTable cases lifetime own).entries := by
  rw [groupTable_entries]
  refine ⟨?_, ?_, ?_⟩
  · rw [List.map_map]
    exact List.map_id _
  · simp
  · intro group hgroup
    obtain ⟨fixture, _, rfl⟩ := List.mem_map.mp hgroup
    exact ⟨List.Perm.refl _, fun _ => rfl⟩

theorem GroupsCases.shuffled {cases : Nat → RegisteredCase} {lifetime : FixtureLifetime} {own : List Nat}
    {groups : List FixtureGroupPlan} (h : GroupsCases cases false lifetime own groups)
    {order : FixtureGroupPlan → List Nat} (horder : ∀ group, Keeps true (order group) group.idxs) :
    GroupsCases cases true lifetime own (groups.map fun group => { group with idxs := order group }) := by
  refine ⟨?_, ?_, ?_⟩
  · rw [List.map_map]
    exact h.fixtures
  · intro group hgroup
    obtain ⟨before, hbefore, rfl⟩ := List.mem_map.mp hgroup
    exact h.lifetimes before hbefore
  · intro group hgroup
    obtain ⟨before, hbefore, rfl⟩ := List.mem_map.mp hgroup
    exact ⟨(horder before).1.trans (h.members before hbefore).1, fun hfalse => nomatch hfalse⟩

theorem finish_suite (shuffle : Bool) (sh : Shuffle) (baseSeed : UInt64) (builder : SuitePlanBuilder) :
    (builder.finish shuffle sh baseSeed).suite = builder.suite := by
  cases shuffle <;> rfl

theorem finish_plans (shuffle : Bool) (sh : Shuffle) (baseSeed : UInt64) (suite : String) (own : List Nat) :
    PlansCases cases shuffle own
      ((own.foldl (fun builder i => builder.add cases i) ({ suite } : SuitePlanBuilder)).finish shuffle sh baseSeed) := by
  rw [builder_of_own]
  have hsuite := groupTable_groups cases .memberSuite own
  have hglobal := groupTable_groups cases .memberGlobal own
  cases shuffle with
  | false => exact ⟨⟨List.Perm.refl _, fun _ => rfl⟩, hsuite, hglobal⟩
  | true =>
    exact ⟨withSeed_keeps sh _ _, hsuite.shuffled fun group => withSeed_keeps sh _ group.idxs,
      hglobal.shuffled fun group => withSeed_keeps sh _ group.idxs⟩

theorem handOut_firsts [DecidableEq κ] (k : Nat → κ) (items : List Nat) :
    (Grouping.handOut k (items.map k).eraseDups items).Perm items := by
  rw [Grouping.handOut_perm_iff]
  intro i hi
  exact List.count_eq_one_of_mem (nodup_eraseDups _) (List.mem_eraseDups.mpr (List.mem_map_of_mem hi))

variable {cases} {shuffle : Bool} {lifetime : FixtureLifetime} {own : List Nat} {plan : SuiteExecutionPlan}

theorem GroupsCases.perm {groups : List FixtureGroupPlan} (h : GroupsCases cases shuffle lifetime own groups) :
    (groups.flatMap FixtureGroupPlan.idxs).Perm (own.filter fun i => (cases i).fixtureLifetime = lifetime) := by
  have hmembers : (groups.flatMap FixtureGroupPlan.idxs).Perm
      ((groups.map FixtureGroupPlan.fixture).flatMap (groupCases cases lifetime own)) := by
    rw [List.flatMap_map]
    exact List.Perm.flatMap_left groups fun group hgroup => (h.members group hgroup).1
  have hgroup : ∀ fixture, groupCases cases lifetime own fixture =
      (own.filter fun i => (cases i).fixtureLifetime = lifetime).filter fun i => (cases i).fixture = fixture := by
    intro fixture
    rw [List.filter_filter]
    simp [groupCases, and_comm]
  refine hmembers.trans ?_
  rw [h.fixtures, funext hgroup]
  exact handOut_firsts (fun i => (cases i).fixture) _

theorem PlansCases.perm (h : PlansCases cases shuffle own plan) : plan.inOrder.Perm own := by
  have hphases : (Grouping.handOut (fun i => phase (cases i)) [0, 1, 2] own).Perm own := by
    rw [Grouping.handOut_perm_iff]
    intro i _
    unfold phase
    cases (cases i).fixtureLifetime <;> rfl
  have hfree : ∀ i, isFree (cases i) = decide (phase (cases i) = 0) := by
    intro i
    unfold isFree phase
    cases (cases i).fixtureLifetime <;> rfl
  have hsuite : ∀ i, decide ((cases i).fixtureLifetime = .memberSuite) = decide (phase (cases i) = 1) := by
    intro i
    unfold phase
    cases (cases i).fixtureLifetime <;> rfl
  have hglobal : ∀ i, decide ((cases i).fixtureLifetime = .memberGlobal) = decide (phase (cases i) = 2) := by
    intro i
    unfold phase
    cases (cases i).fixtureLifetime <;> rfl
  refine ((h.freeLike.1.append h.suiteGroups.perm).append h.globalGroups.perm).trans ?_
  simp only [hfree, hsuite, hglobal]
  refine List.Perm.trans (List.Perm.of_eq ?_) hphases
  simp [Grouping.handOut]

theorem inOrder_blocks (plan : SuiteExecutionPlan) : plan.inOrder = plan.blocks.flatMap Prod.snd := by
  simp [SuiteExecutionPlan.inOrder, SuiteExecutionPlan.blocks, List.flatMap_map, List.flatMap_append]

theorem GroupsCases.case_of_mem {groups : List FixtureGroupPlan} {group : FixtureGroupPlan} {i : Nat}
    (h : GroupsCases cases shuffle lifetime own groups) (hgroup : group ∈ groups) (hi : i ∈ group.idxs) :
    i ∈ own ∧ (cases i).fixtureLifetime = group.fixtureLifetime ∧ (cases i).fixture = group.fixture := by
  have hmem := ((h.members group hgroup).1.mem_iff).mp hi
  rw [groupCases, List.mem_filter, decide_eq_true_eq] at hmem
  rw [h.lifetimes group hgroup]
  exact hmem

theorem PlansCases.caseKey_of_mem {idxs : List Nat} (h : PlansCases cases shuffle (ownCases cases idxs plan.suite) plan) :
    ∀ block ∈ plan.blocks, ∀ i ∈ block.2, caseKey cases i = block.1 := by
  have hown : ∀ i ∈ ownCases cases idxs plan.suite, (cases i).suite = plan.suite := fun i hi =>
    of_decide_eq_true (List.mem_filter.mp hi).2
  have hfixture : ∀ i, (cases i).fixtureLifetime = .memberSuite ∨ (cases i).fixtureLifetime = .memberGlobal →
      isFree (cases i) = false := by
    rintro i (hlife | hlife) <;> simp [isFree, hlife]
  intro block hblock i hi
  rcases List.mem_cons.mp hblock with rfl | hrest
  · obtain ⟨hmem, hfree⟩ := List.mem_filter.mp ((h.freeLike.1.mem_iff).mp hi)
    rw [caseKey, hown i hmem, if_pos hfree]
  · obtain ⟨group, hmember, rfl⟩ := List.mem_map.mp hrest
    rcases List.mem_append.mp hmember with hgroup | hgroup
    · obtain ⟨hmem, hlife, hname⟩ := h.suiteGroups.case_of_mem hgroup hi
      have hfree := hfixture i (.inl (hlife.trans (h.suiteGroups.lifetimes group hgroup)))
      rw [caseKey, hown i hmem, hfree, hlife, hname]
      rfl
    · obtain ⟨hmem, hlife, hname⟩ := h.globalGroups.case_of_mem hgroup hi
      have hfree := hfixture i (.inr (hlife.trans (h.globalGroups.lifetimes group hgroup)))
      rw [caseKey, hown i hmem, hfree, hlife, hname]
      rfl

theorem GroupsCases.keys_nodup {groups : List FixtureGroupPlan} (h : GroupsCases cases shuffle lifetime own groups) :
    (groups.map fun group => (group.fixtureLifetime, group.fixture)).Nodup := by
  have hnames : (groups.map FixtureGroupPlan.fixture).Nodup := by
    rw [h.fixtures]
    exact nodup_eraseDups _
  refine List.Nodup.of_map Prod.snd ?_
  rw [List.map_map]
  exact hnames

theorem pairing_injective (suite : String) :
    Function.Injective fun key : FixtureLifetime × String => ((suite, some key) : BlockKey) := by
  intro key key' heq
  simpa using heq

theorem PlansCases.keys_nodup (h : PlansCases cases shuffle own plan) : (plan.blocks.map Prod.fst).Nodup := by
  -- the two kinds of groups have different lifetimes
  have hgroups : ((plan.suiteGroups ++ plan.globalGroups).map fun group =>
      (group.fixtureLifetime, group.fixture)).Nodup := by
    rw [List.map_append, List.nodup_append]
    refine ⟨h.suiteGroups.keys_nodup, h.globalGroups.keys_nodup, ?_⟩
    intro _ hsuite _ hglobal heq
    obtain ⟨group, hgroup, rfl⟩ := List.mem_map.mp hsuite
    obtain ⟨other, hother, rfl⟩ := List.mem_map.mp hglobal
    have hlife := congrArg Prod.fst heq
    rw [h.suiteGroups.lifetimes group hgroup, h.globalGroups.lifetimes other hother] at hlife
    cases hlife
  rw [SuiteExecutionPlan.blocks, List.map_cons, List.map_map, List.nodup_cons]
  refine ⟨?_, ?_⟩
  · simp
  · have hkeys := hgroups.map (pairing_injective plan.suite)
    rw [List.map_map] at hkeys
    exact hkeys

theorem PlansCases.phases (h : PlansCases cases shuffle own plan) :
    plan.inOrder.Pairwise fun i j => phase (cases i) ≤ phase (cases j) := by
  have hfree : ∀ i ∈ plan.freeLike, phase (cases i) = 0 := by
    intro i hi
    have hmem := (List.mem_filter.mp ((h.freeLike.1.mem_iff).mp hi)).2
    simp only [isFree, decide_eq_true_eq] at hmem
    rcases hmem with hlife | hlife <;> simp [phase, hlife]
  have hsuite : ∀ i ∈ plan.suiteGroups.flatMap FixtureGroupPlan.idxs, phase (cases i) = 1 := by
    intro i hi
    have hlife := of_decide_eq_true (List.mem_filter.mp ((h.suiteGroups.perm.mem_iff).mp hi)).2
    simp [phase, hlife]
  have hglobal : ∀ i ∈ plan.globalGroups.flatMap FixtureGroupPlan.idxs, phase (cases i) = 2 := by
    intro i hi
    have hlife := of_decide_eq_true (List.mem_filter.mp ((h.globalGroups.perm.mem_iff).mp hi)).2
    simp [phase, hlife]
  have hsame : ∀ {idxs : List Nat} {n : Nat}, (∀ i ∈ idxs, phase (cases i) = n) →
      idxs.Pairwise fun i j => phase (cases i) ≤ phase (cases j) := fun hn =>
    List.pairwise_of_forall_mem_list fun i hi j hj => by rw [hn i hi, hn j hj]
  rw [SuiteExecutionPlan.inOrder, List.pairwise_append, List.pairwise_append]
  refine ⟨⟨hsame hfree, hsame hsuite, ?_⟩, hsame hglobal, ?_⟩
  · intro i hi j _
    rw [hfree i hi]
    exact Nat.zero_le _
  · intro i hi j hj
    rw [hglobal j hj]
    rcases List.mem_append.mp hi with hi | hi
    · rw [hfree i hi]
      exact Nat.zero_le _
    · rw [hsuite i hi]
      exact Nat.le_succ _

theorem buildSuiteExecutionPlan_suites (cases : Nat → RegisteredCase) (shuffle : Bool) (idxs : List Nat) (sh : Shuffle)
    (baseSeed : UInt64) :
    (buildSuiteExecutionPlan cases idxs shuffle sh baseSeed).map SuiteExecutionPlan.suite =
      (idxs.map fun i => (cases i).suite).eraseDups := by
  rw [buildSuiteExecutionPlan, planBuilders_entries, List.map_map, List.map_map]
  refine (List.map_congr_left fun suite _ => ?_).trans (List.map_id _)
  simp only [Function.comp_apply, finish_suite, builder_of_own, id_eq]

theorem buildSuiteExecutionPlan_buckets (cases : Nat → RegisteredCase) (shuffle : Bool) (idxs : List Nat) (sh : Shuffle)
    (baseSeed : UInt64) :
    ∀ plan ∈ buildSuiteExecutionPlan cases idxs shuffle sh baseSeed,
      PlansCases cases shuffle (ownCases cases idxs plan.suite) plan := by
  intro plan hplan
  rw [buildSuiteExecutionPlan, planBuilders_entries, List.map_map] at hplan
  obtain ⟨suite, _, rfl⟩ := List.mem_map.mp hplan
  have hsuite : (SuitePlanBuilder.finish shuffle sh baseSeed
      ((ownCases cases idxs suite).foldl (fun builder i => builder.add cases i) { suite })).suite = suite := by
    rw [finish_suite, builder_of_own]
  rw [Function.comp_apply, hsuite]
  exact finish_plans cases shuffle sh baseSeed suite (ownCases cases idxs suite)

/-- The plan of a run is a grouped permutation of the selected cases. -/
theorem build_suite_execution_plan_grouped (cases : Nat → RegisteredCase) (idxs : List Nat) (shuffle : Bool)
    (sh : Shuffle) (baseSeed : UInt64) :
    GroupedPermutation cases idxs shuffle (buildSuiteExecutionPlan cases idxs shuffle sh baseSeed) := by
  have hsuites := buildSuiteExecutionPlan_suites cases shuffle idxs sh baseSeed
  have hbuckets := buildSuiteExecutionPlan_buckets cases shuffle idxs sh baseSeed
  generalize buildSuiteExecutionPlan cases idxs shuffle sh baseSeed = plans at hsuites hbuckets
  have honce : (plans.map SuiteExecutionPlan.suite).Nodup := by
    rw [hsuites]
    exact nodup_eraseDups _
  have hsuite : ∀ plan ∈ plans, ∀ i ∈ plan.inOrder, (cases i).suite = plan.suite := by
    intro plan hplan i hi
    have hmem := ((hbuckets plan hplan).perm.mem_iff).mp hi
    exact of_decide_eq_true (List.mem_filter.mp hmem).2
  have hblocks : planned plans = (plans.flatMap SuiteExecutionPlan.blocks).flatMap Prod.snd := by
    rw [List.flatMap_assoc]
    exact List.flatMap_congr fun plan _ => inOrder_blocks plan
  have hkeys : ((plans.flatMap SuiteExecutionPlan.blocks).map Prod.fst).Nodup := by
    rw [List.map_flatMap, List.nodup_flatMap]
    refine ⟨fun plan hplan => (hbuckets plan hplan).keys_nodup, ?_⟩
    refine (List.pairwise_map.mp honce).imp ?_
    -- the keys of two plans differ in the suite
    intro plan other hne key hkey hkey'
    have hkeySuite : ∀ plan' : SuiteExecutionPlan, key ∈ plan'.blocks.map Prod.fst → key.1 = plan'.suite := by
      intro plan' hmem
      simp only [SuiteExecutionPlan.blocks, List.map_cons, List.map_map, List.mem_cons, List.mem_map] at hmem
      rcases hmem with rfl | ⟨group, _, rfl⟩ <;> rfl
    exact hne ((hkeySuite plan hkey).symm.trans (hkeySuite other hkey'))
  refine ⟨?_, hsuites, honce, hbuckets, hkeys, contiguous_flatMap honce hsuite, ?_, ?_⟩
  · have hown : (planned plans).Perm ((plans.map SuiteExecutionPlan.suite).flatMap (ownCases cases idxs)) := by
      rw [List.flatMap_map]
      exact List.Perm.flatMap_left plans fun plan hplan => (hbuckets plan hplan).perm
    refine hown.trans ?_
    rw [hsuites]
    exact handOut_firsts (fun i => (cases i).suite) idxs
  · rw [hblocks]
    refine contiguous_flatMap hkeys ?_
    intro block hblock i hi
    obtain ⟨plan, hplan, hmem⟩ := List.mem_flatMap.mp hblock
    exact (hbuckets plan hplan).caseKey_of_mem block hmem i hi
  · rw [planned, List.pairwise_flatMap]
    refine ⟨fun plan hplan => (hbuckets plan hplan).phases.imp ?_, ?_⟩
    · exact fun hle _ => hle
    · refine (List.pairwise_map.mp honce).imp_of_mem ?_
      intro plan other hplan hother hne i hi j hj heq
      rw [hsuite plan hplan i hi, hsuite other hother j hj] at heq
      exact absurd heq hne

/-- A shuffle that turns every list around. -/
def reversing : Shuffle where
  hash := fun _ => 0
  order := fun _ idxs => idxs.reverse
  perm := fun _ idxs => List.reverse_perm idxs

/-- A suite with free cases, cases on a suite fixture and one on a global fixture, and another suite. -/
def mixedCases (i : Nat) : RegisteredCase :=
  if i = 1 then { name := "b/one", suite := "b" }
  else if i = 3 then { name := "a/global", suite := "a", fixture := "G", fixtureLifetime := .memberGlobal }
  else if i = 2 ∨ i = 5 then { name := "a/suite", suite := "a", fixture := "F", fixtureLifetime := .memberSuite }
  else { name := "a/free", suite := "a" }

/-- The plan of `mixedCases`, with its buckets turned around. -/
theorem mixed_plan_grouped :
    buildSuiteExecutionPlan mixedCases [3, 0, 1, 2, 4, 5] true reversing 7 =
      [{ suite := "a", freeLike := [4, 0], suiteGroups := [⟨"F", .memberSuite, [5, 2]⟩],
         globalGroups := [⟨"G", .memberGlobal, [3]⟩] },
       { suite := "b", freeLike := [1] }] ∧
    GroupedPermutation mixedCases [3, 0, 1, 2, 4, 5] true
      (buildSuiteExecutionPlan mixedCases [3, 0, 1, 2, 4, 5] true reversing 7) :=
  ⟨by decide, build_suite_execution_plan_grouped _ _ _ _ _⟩

end Gentest.Runner.PlanIndices
