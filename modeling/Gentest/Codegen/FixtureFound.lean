import Gentest.Codegen.FixtureResolution
import Gentest.Fixture.NearestSuite

/-!
# Accepted fixtures at run time

A test that `resolve_free_fixtures` accepts sees its suite fixture from an
inner namespace. At run time the fixture is looked up by suites, and these need
not be nested as the namespaces are: an inner namespace may name another suite.
The wrapper asks with the suite of the fixture and always finds it; the runner
asks with the suite of the case.
-/

namespace Gentest.Codegen

open Fixture

-- ---------------------------------------------------------------------------
-- Resolution
-- ---------------------------------------------------------------------------

theorem findBestVisibleFixture_some {lookup : List FixtureDecl} {base : String}
    {test : TestCaseInfo} {decl : FixtureDecl}
    (h : findBestVisibleFixture lookup base test = some decl) : decl ∈ lookup := by
  have hfold : ∀ (lookup : List FixtureDecl) best,
      lookup.foldl (fun best decl =>
        if decl.1.baseName = base ∧ isVisibleFixtureForTest decl.1 test ∧
            best.all (fun b : FixtureDecl =>
              decl.1.namespaceParts.length > b.1.namespaceParts.length) then some decl
        else best) best = some decl → decl ∈ lookup ∨ best = some decl := by
    intro lookup
    induction lookup with
    | nil => exact fun _ h => .inr h
    | cons first lookup ih =>
      intro best h
      rw [List.foldl_cons] at h
      rcases ih _ h with hmem | hbest
      · exact .inl (List.mem_cons_of_mem _ hmem)
      · split at hbest
        · cases hbest
          exact .inl List.mem_cons_self
        · exact .inr hbest
  rcases hfold lookup none h with hmem | hnone
  · exact hmem
  · cases hnone

/-- What the use of a declared fixture takes from its declaration. -/
structure UsesDecl (fixtures : List FixtureDeclInfo) (param : FixtureParam) (use : FreeFixtureUse)
    (decl : FixtureDecl) : Prop where
  mem : decl.1 ∈ fixtures
  registryName : use.registryName = decl.1.qualifiedName ++ (parseFixtureType param.rawType).suffix
  scope : use.scope = decl.1.scope
  suiteName : use.suiteName = decl.1.suiteName

theorem emitDeclared_some {fixtures : List FixtureDeclInfo} {param : FixtureParam}
    {use : FreeFixtureUse} {decl decl' : FixtureDecl} (hmem : decl'.1 ∈ fixtures)
    (h : emitDeclared param decl' = .ok (use, some decl)) : UsesDecl fixtures param use decl := by
  unfold emitDeclared at h
  dsimp only at h
  split at h
  · split at h
    · cases h
    · cases h
      exact ⟨hmem, rfl, rfl, rfl⟩
  · cases h
    exact ⟨hmem, rfl, rfl, rfl⟩

theorem emitIfVisible_some {fixtures : List FixtureDeclInfo} {test : TestCaseInfo}
    {param : FixtureParam} {name : String} {use : FreeFixtureUse} {decl decl' : FixtureDecl}
    (hmem : decl'.1 ∈ fixtures)
    (h : emitIfVisible test param name decl' = .ok (use, some decl)) :
    UsesDecl fixtures param use decl := by
  unfold emitIfVisible at h
  split at h
  · exact emitDeclared_some hmem h
  · cases h

theorem emitLocal_ne_some {param : FixtureParam} {name : String} {use : FreeFixtureUse}
    {decl : FixtureDecl} : emitLocal param name ≠ .ok (use, some decl) := by
  unfold emitLocal
  split <;> nofun

theorem resolveFixture_some {fixtures : List FixtureDeclInfo} {test : TestCaseInfo}
    {param : FixtureParam} {use : FreeFixtureUse} {decl : FixtureDecl}
    (h : resolveFixture fixtures test param = .ok (use, some decl)) :
    UsesDecl fixtures param use decl := by
  have hlookup : ∀ decl ∈ fixtureLookup fixtures test.tuFilename, decl.1 ∈ fixtures := by
    intro decl hdecl
    exact List.fst_mem_of_mem_zipIdx (List.mem_of_mem_filter hdecl)
  unfold resolveFixture at h
  dsimp only at h
  split at h
  · cases h
  · split at h
    · rename_i decl' hentity
      refine emitIfVisible_some ?_ h
      unfold findByEntity at hentity
      split at hentity
      · cases hentity
      · exact List.fst_mem_of_mem_zipIdx (List.mem_of_find?_eq_some hentity)
    · split at h
      · exact absurd h emitLocal_ne_some
      · split at h
        · split at h
          · rename_i decl' hqualified
            refine emitIfVisible_some ?_ h
            unfold findByQualified at hqualified
            split at hqualified
            · cases hqualified
            · exact hlookup _ (List.mem_reverse.mp (List.mem_of_find?_eq_some hqualified))
          · exact absurd h emitLocal_ne_some
        · split at h
          · rename_i decl' hbest
            exact emitDeclared_some (hlookup _ (findBestVisibleFixture_some hbest)) h
          · split at h
            · cases h
            · exact absurd h emitLocal_ne_some

theorem freeFixtures_accepted {fixtures : List FixtureDeclInfo} {test : TestCaseInfo}
    (h : useErrors fixtures test = []) {k : Nat} {param : FixtureParam} {r : Resolved}
    (hparam : test.fixtureParams[k]? = some param) (hr : resolveFixture fixtures test param = .ok r) :
    (resolvedUses fixtures test)[k]? = some r := by
  have hok : ∀ p ∈ test.fixtureParams, ∃ r, resolveFixture fixtures test p = .ok r := by
    intro p hp
    cases hp' : resolveFixture fixtures test p with
    | ok r => exact ⟨r, rfl⟩
    | error message =>
      have hmem : test.report message ∈ useErrors fixtures test :=
        List.mem_filterMap.mpr ⟨p, hp, by simp [hp']⟩
      rw [h] at hmem
      cases hmem
  rw [resolvedUses]
  generalize test.fixtureParams = params at hok hparam ⊢
  induction params generalizing k with
  | nil => cases hparam
  | cons p params ih =>
    obtain ⟨r', hr'⟩ := hok p List.mem_cons_self
    have hcons : (p :: params).filterMap (fun param => (resolveFixture fixtures test param).toOption) =
        r' :: params.filterMap fun param => (resolveFixture fixtures test param).toOption := by
      rw [List.filterMap_cons, hr']
      rfl
    rw [hcons]
    cases k with
    | zero =>
      cases hparam
      rw [hr] at hr'
      cases hr'
      rfl
    | succ k => exact ih (fun p hp => hok p (List.mem_cons_of_mem _ hp)) hparam

-- ---------------------------------------------------------------------------
-- Registration
-- ---------------------------------------------------------------------------

def FixtureDeclInfo.identity (fx : FixtureDeclInfo) : String × FixtureScope × String :=
  (fx.qualifiedName, fx.scope, fx.suiteName)

theorem identity_nameRegistration (visibleType : String) (fx : FixtureDeclInfo) :
    (nameRegistration visibleType fx).identity = fx.identity := by
  unfold nameRegistration
  split <;> rfl

theorem identity_modify (visibleType : String) (i : Nat) (fixtures : List FixtureDeclInfo) :
    (fixtures.modify i (nameRegistration visibleType)).map FixtureDeclInfo.identity =
      fixtures.map FixtureDeclInfo.identity := by
  induction fixtures generalizing i with
  | nil => cases i <;> rfl
  | cons fx fixtures ih =>
    cases i with
    | zero => simp [identity_nameRegistration]
    | succ i => simp [ih]

theorem identity_registeredFixtures (cases : List TestCaseInfo) (fixtures : List FixtureDeclInfo) :
    (registeredFixtures cases fixtures).map FixtureDeclInfo.identity =
      fixtures.map FixtureDeclInfo.identity := by
  have huse : ∀ test named param, (nameUse fixtures test named param).map FixtureDeclInfo.identity =
      named.map FixtureDeclInfo.identity := by
    intro test named param
    unfold nameUse
    split
    · exact identity_modify _ _ _
    · rfl
  have hparams : ∀ (test : TestCaseInfo) (params : List FixtureParam) named,
      (params.foldl (nameUse fixtures test) named).map FixtureDeclInfo.identity =
        named.map FixtureDeclInfo.identity := by
    intro test params
    induction params with
    | nil => exact fun _ => rfl
    | cons param params ih =>
      intro named
      rw [List.foldl_cons, ih, huse]
  have hcases : ∀ (cases : List TestCaseInfo) (named : List FixtureDeclInfo),
      (cases.foldl (fun named (test : TestCaseInfo) =>
        test.fixtureParams.foldl (nameUse fixtures test) named) named).map FixtureDeclInfo.identity = named.map FixtureDeclInfo.identity := by
    intro cases
    induction cases with
    | nil => exact fun _ => rfl
    | cons test cases ih =>
      intro named
      rw [List.foldl_cons, ih, hparams]
  exact hcases cases fixtures

def entryName (e : SharedFixtureEntry) : String × SharedFixtureScope × String :=
  (e.fixtureName, e.scope, e.suite)

/-- The registry of a run: the entries of the registrations, each in the state
it is in by then. -/
structure RunsWith (calls : List Registration) (reg : SharedFixtureRegistry) : Prop where
  gate : ∃ gate : SharedFixtureRunGate, gate.active = false ∧
    (registerAll gate calls).registrationError = false ∧
    reg.entries.map entryName = (registerAll gate calls).entries.map entryName
  quiet : reg.registrationError = false

theorem RunsWith.entry_iff {callbacks : FixtureDeclInfo → Registration} {cases : List TestCaseInfo}
    {fixtures : List FixtureDeclInfo} {reg : SharedFixtureRegistry}
    (h : RunsWith (renderFixtureRegistrations callbacks (resolveFreeFixtures cases fixtures).fixtures)
      reg) (name suite : String) :
    (∃ e ∈ reg.entries, entryName e = (name, .suite, suite)) ↔
      ∃ fx ∈ fixtures, fx.identity = (name, .suite, suite) := by
  obtain ⟨gate, hgate, herror, hnames⟩ := h.gate
  have hentries : ∀ e, e ∈ (registerAll gate
      (renderFixtureRegistrations callbacks (resolveFreeFixtures cases fixtures).fixtures)).entries ↔
      ∃ c ∈ renderFixtureRegistrations callbacks (resolveFreeFixtures cases fixtures).fixtures,
        e = c.entry :=
    fun e => (registered_registerAll _ hgate).mem_iff herror
  have hfixtures := identity_registeredFixtures cases fixtures
  have hcalls : ∀ name suite : String,
      (∃ c ∈ renderFixtureRegistrations callbacks (resolveFreeFixtures cases fixtures).fixtures,
        entryName c.entry = (name, SharedFixtureScope.suite, suite)) ↔
        ∃ fx ∈ (resolveFreeFixtures cases fixtures).fixtures,
          fx.identity = (name, FixtureScope.suite, suite) := by
    intro name suite
    constructor
    · rintro ⟨c, hc, heq⟩
      obtain ⟨fx, hfx, hrender⟩ := List.mem_filterMap.mp hc
      refine ⟨fx, hfx, ?_⟩
      unfold renderFixtureRegistration at hrender
      cases hscope : fx.scope with
      | localScope => simp [hscope] at hrender
      | global =>
        simp only [hscope, Option.some.injEq] at hrender
        subst hrender
        simp [entryName, Registration.entry] at heq
      | suite =>
        simp only [hscope, Option.some.injEq] at hrender
        subst hrender
        simpa [entryName, Registration.entry, FixtureDeclInfo.identity, hscope] using heq
    · rintro ⟨fx, hfx, heq⟩
      simp only [FixtureDeclInfo.identity, Prod.mk.injEq] at heq
      obtain ⟨hname, hscope, hsuite⟩ := heq
      refine ⟨{ callbacks fx with
        scope := .suite, suite := fx.suiteName, fixtureName := fx.qualifiedName }, ?_, ?_⟩
      · exact List.mem_filterMap.mpr ⟨fx, hfx, by simp [renderFixtureRegistration, hscope]⟩
      · simp [entryName, Registration.entry, hname, hsuite]
  calc (∃ e ∈ reg.entries, entryName e = (name, .suite, suite))
      ↔ (name, SharedFixtureScope.suite, suite) ∈ reg.entries.map entryName := by
        simp
    _ ↔ ∃ c ∈ renderFixtureRegistrations callbacks (resolveFreeFixtures cases fixtures).fixtures,
          entryName c.entry = (name, SharedFixtureScope.suite, suite) := by
        rw [hnames, List.mem_map]
        constructor
        · rintro ⟨e, he, heq⟩
          obtain ⟨c, hc, rfl⟩ := (hentries e).mp he
          exact ⟨c, hc, heq⟩
        · rintro ⟨c, hc, heq⟩
          exact ⟨c.entry, (hentries _).mpr ⟨c, hc, rfl⟩, heq⟩
    _ ↔ (name, FixtureScope.suite, suite) ∈
          (resolveFreeFixtures cases fixtures).fixtures.map FixtureDeclInfo.identity := by
        rw [hcalls, List.mem_map]
    _ ↔ ∃ fx ∈ fixtures, fx.identity = (name, .suite, suite) := by
        rw [resolveFreeFixtures, hfixtures, List.mem_map]

-- ---------------------------------------------------------------------------
-- Requests
-- ---------------------------------------------------------------------------

def Selects (reg : SharedFixtureRegistry) (suite name : String) (fx : FixtureDeclInfo) : Prop :=
  ∃ i e, selectSharedFixture reg .suite suite name = some (i, e) ∧
    entryName e = (fx.qualifiedName, .suite, fx.suiteName)

/-- No suite fixture of the same name has a longer suite that matches too. -/
def LongestMatch (fixtures : List FixtureDeclInfo) (suite : String) (fx : FixtureDeclInfo) : Prop :=
  ∀ other ∈ fixtures, other.scope = .suite → other.qualifiedName = fx.qualifiedName →
    suiteScopeMatches other.suiteName suite = true →
      other.suiteName.utf8ByteSize ≤ fx.suiteName.utf8ByteSize

/-- The entries for suite fixtures are those of the declarations. -/
def EntriesOf (fixtures : List FixtureDeclInfo) (reg : SharedFixtureRegistry) : Prop :=
  ∀ name suite, (∃ e ∈ reg.entries, entryName e = (name, .suite, suite)) ↔
    ∃ fx ∈ fixtures, fx.identity = (name, .suite, suite)

variable {fixtures : List FixtureDeclInfo} {reg : SharedFixtureRegistry} {fx : FixtureDeclInfo}

theorem selects_iff (h : EntriesOf fixtures reg) (hfx : fx ∈ fixtures) (hscope : fx.scope = .suite)
    (suite name : String) :
    Selects reg suite name fx ↔ name = fx.qualifiedName ∧
      suiteScopeMatches fx.suiteName suite = true ∧ LongestMatch fixtures suite fx := by
  have hserves : ∀ e : SharedFixtureEntry, e.serves .suite suite name = true ↔
      ∃ s, entryName e = (name, .suite, s) ∧ suiteScopeMatches s suite = true := by
    intro e
    simp only [SharedFixtureEntry.serves, Bool.and_eq_true, beq_iff_eq, entryName, Prod.mk.injEq]
    constructor
    · rintro ⟨⟨hscope, hname⟩, hmatch⟩
      exact ⟨e.suite, ⟨hname, hscope, rfl⟩, hmatch⟩
    · rintro ⟨s, ⟨hname, hscope, rfl⟩, hmatch⟩
      exact ⟨⟨hscope, hname⟩, hmatch⟩
  have hsuite : ∀ e s, entryName e = (name, SharedFixtureScope.suite, s) → e.suite = s := by
    rintro e s heq
    exact (Prod.mk.inj (Prod.mk.inj heq).2).2
  constructor
  · rintro ⟨i, e, hselect, hentry⟩
    obtain ⟨hmem, hserve⟩ := selectFrom_serves hselect
    obtain ⟨s, hentry', hmatch⟩ := (hserves e).mp hserve
    rw [hentry] at hentry'
    obtain ⟨rfl, -, rfl⟩ : fx.qualifiedName = name ∧ SharedFixtureScope.suite = .suite ∧
        fx.suiteName = s := by
      simpa using hentry'
    refine ⟨rfl, hmatch, fun other hother hother' hname hmatch' => ?_⟩
    obtain ⟨e', he', hentry'⟩ := (h other.qualifiedName other.suiteName).mpr
      ⟨other, hother, by rw [FixtureDeclInfo.identity, hother']⟩
    have hle := (selectFrom_max hselect).2 e' he' ((hserves e').mpr
      ⟨other.suiteName, by rw [hentry', hname], hmatch'⟩)
    rw [hsuite e _ hentry, hsuite e' other.suiteName (by rw [hentry', hname])] at hle
    exact hle
  · rintro ⟨rfl, hmatch, hlongest⟩
    obtain ⟨e₀, he₀, hentry₀⟩ := (h fx.qualifiedName fx.suiteName).mpr
      ⟨fx, hfx, by rw [FixtureDeclInfo.identity, hscope]⟩
    have hserve₀ := (hserves e₀).mpr ⟨_, hentry₀, hmatch⟩
    cases hselect : selectSharedFixture reg .suite suite fx.qualifiedName with
    | none =>
      have hnone := selectFrom_none hselect e₀ he₀
      rw [hserve₀] at hnone
      cases hnone
    | some selected =>
      obtain ⟨i, e⟩ := selected
      refine ⟨i, e, hselect, ?_⟩
      obtain ⟨hmem, hserve⟩ := selectFrom_serves hselect
      obtain ⟨s, hentry, hmatch'⟩ := (hserves e).mp hserve
      obtain ⟨other, hother, hidentity⟩ := (h _ _).mp ⟨e, hmem, hentry⟩
      obtain ⟨hname, hscope', rfl⟩ : other.qualifiedName = fx.qualifiedName ∧
          other.scope = .suite ∧ other.suiteName = s := by
        simpa [FixtureDeclInfo.identity] using hidentity
      have hle := (selectFrom_max hselect).2 e₀ he₀ hserve₀
      rw [hsuite e₀ _ hentry₀, hsuite e _ hentry] at hle
      have hge := hlongest other hother hscope' hname hmatch'
      rw [hentry, suiteScopeMatches_inj hmatch' hmatch (Nat.le_antisymm hge hle)]

theorem selects_own_iff (h : EntriesOf fixtures reg) (hfx : fx ∈ fixtures)
    (hscope : fx.scope = .suite) (name : String) :
    Selects reg fx.suiteName name fx ↔ name = fx.qualifiedName := by
  rw [selects_iff h hfx hscope]
  refine ⟨fun h => h.1, fun hname => ⟨hname, suiteScopeMatches_self, fun other _ _ _ hmatch => ?_⟩⟩
  by_cases heq : other.suiteName = fx.suiteName
  · rw [heq]
  · exact Nat.le_of_lt (suiteScopeMatches_shorter hmatch heq)

-- ---------------------------------------------------------------------------
-- Accepted tests
-- ---------------------------------------------------------------------------

/-- The emitted case names the fixture of this parameter: the test is no member
and the parameters before are local. -/
def TakesCaseFixture (test : TestCaseInfo) (k : Nat) : Prop :=
  test.fixtureQualifiedName = "" ∧ ∀ use ∈ test.freeFixtures.take k, use.scope = .localScope

/-- The runner gets the instance of the fixture once that is set up. -/
def Acquires (reg : SharedFixtureRegistry) (c : EmittedCase) (fx : FixtureDeclInfo) : Prop :=
  ∃ i e, selectSharedFixture reg .suite c.suite c.fixture = some (i, e) ∧
    entryName e = (fx.qualifiedName, .suite, fx.suiteName) ∧
    ∀ p, e.failed = false → e.initializing = false → e.initialized = true →
      e.instancePtr = some p → acquireCaseFixture reg c = .ok (some p)

/-- Both requests for the fixture of a parameter find it. -/
structure FixtureFound (reg : SharedFixtureRegistry) (test : TestCaseInfo) (k : Nat)
    (use : FreeFixtureUse) (fx : FixtureDeclInfo) : Prop where
  wrapper : Selects reg use.suiteName use.lookupName fx
  runner : TakesCaseFixture test k → Acquires reg (renderCaseEntry test) fx

theorem acquires_iff_selects (hquiet : reg.registrationError = false) {c : EmittedCase}
    (hlifetime : c.fixtureLifetime = .memberSuite) (hname : c.fixture ≠ "") :
    Acquires reg c fx ↔ Selects reg c.suite c.fixture fx := by
  constructor
  · rintro ⟨i, e, hselect, hentry, -⟩
    exact ⟨i, e, hselect, hentry⟩
  · rintro ⟨i, e, hselect, hentry⟩
    refine ⟨i, e, hselect, hentry, fun p hfailed hinitializing hinitialized hp => ?_⟩
    have hshared : getSharedFixture reg .suite c.suite c.fixture = (some p, "") := by
      simp [getSharedFixture, hquiet, hselect, hfailed, hinitializing, hinitialized, hp]
    simp [acquireCaseFixture, hlifetime, hname, hshared]

theorem renderCaseEntry_takes {test : TestCaseInfo} {k : Nat} {use : FreeFixtureUse}
    (h : TakesCaseFixture test k) (huse : test.freeFixtures[k]? = some use)
    (hscope : use.scope = .suite) :
    renderCaseEntry test = ⟨use.lookupName, .memberSuite, test.suiteName⟩ := by
  have hfind : test.freeFixtures.find? (fun use => !decide (use.scope = .localScope)) = some use := by
    have hsplit : test.freeFixtures =
        test.freeFixtures.take k ++ use :: test.freeFixtures.drop (k + 1) := by
      obtain ⟨hk, rfl⟩ := List.getElem?_eq_some_iff.mp huse
      rw [← List.drop_eq_getElem_cons hk, List.take_append_drop]
    have hnone : (test.freeFixtures.take k).find? (fun use => !decide (use.scope = .localScope)) = none := by
      rw [List.find?_eq_none]
      intro other hother
      simp [h.2 other hother]
    rw [hsplit, List.find?_append, hnone, Option.none_or, List.find?_cons_of_pos]
    simp [hscope]
  simp [renderCaseEntry, caseGroupingFixture, h.1, hfind, hscope, sharedFixtureLifetime]

theorem freeFixtures_resolveTest {cases : List TestCaseInfo} {test : TestCaseInfo} {k : Nat}
    {param : FixtureParam} {r : Resolved}
    (haccept : (resolveFreeFixtures cases fixtures).errors = []) (htest : test ∈ cases)
    (hparam : test.fixtureParams[k]? = some param) (hr : resolveFixture fixtures test param = .ok r) :
    (resolveTest fixtures test).freeFixtures[k]? = some r.1 := by
  have htypes : test.freeFixtureTypes ≠ [] := by
    intro hnil
    simp [TestCaseInfo.fixtureParams, hnil] at hparam
  have herrors : testErrors fixtures test = [] := by
    have hall := (List.append_eq_nil_iff.mp haccept).1
    exact List.flatMap_eq_nil_iff.mp hall test htest
  have huses : useErrors fixtures test = [] := by
    rw [testErrors, if_neg htypes] at herrors
    exact (List.append_eq_nil_iff.mp herrors).1
  have hresolved := freeFixtures_accepted huses hparam hr
  simp only [resolveTest, if_neg htypes]
  rw [List.getElem?_map, hresolved]
  rfl

theorem suiteName_resolveTest (test : TestCaseInfo) :
    (resolveTest fixtures test).suiteName = test.suiteName := by
  unfold resolveTest
  split <;> rfl

theorem UsesDecl.lookupName {param : FixtureParam} {use : FreeFixtureUse} {decl : FixtureDecl}
    (h : UsesDecl fixtures param use decl) (hnamed : decl.1.qualifiedName ≠ "") :
    use.lookupName = decl.1.qualifiedName ++ (parseFixtureType param.rawType).suffix := by
  have hne : use.registryName ≠ "" := by
    rw [h.registryName]
    intro hempty
    exact hnamed (String.append_eq_empty_iff.mp hempty).1
  rw [FreeFixtureUse.lookupName, if_neg hne, h.registryName]

/-- An accepted test finds its suite fixture if and only if the suites are
nested as the namespaces are, and the fixture is no template. -/
theorem suite_fixture_found_iff (fixtures : List FixtureSource) (tests : List TestSource)
    (callbacks : FixtureDeclInfo → Registration) (reg : SharedFixtureRegistry)
    (haccept : (resolveFreeFixtures (tests.map TestSource.collect)
      (fixtures.map FixtureSource.collect)).errors = [])
    (hreg : RunsWith (renderFixtureRegistrations callbacks (resolveFreeFixtures
      (tests.map TestSource.collect) (fixtures.map FixtureSource.collect)).fixtures) reg)
    (t : TestSource) (ht : t ∈ tests) (k : Nat) (param : FixtureParam)
    (hparam : t.collect.fixtureParams[k]? = some param) (use : FreeFixtureUse) (decl : FixtureDecl)
    (huse : resolveFixture (fixtures.map FixtureSource.collect) t.collect param =
      .ok (use, some decl)) (hscope : decl.1.scope = .suite) :
    FixtureFound reg (resolveTest (fixtures.map FixtureSource.collect) t.collect) k use decl.1 ↔
      (parseFixtureType param.rawType).suffix = "" ∧
        (TakesCaseFixture (resolveTest (fixtures.map FixtureSource.collect) t.collect) k →
          suiteScopeMatches decl.1.suiteName (suitePath t.ctx) = true ∧
            LongestMatch (fixtures.map FixtureSource.collect) (suitePath t.ctx) decl.1) := by
  have hentries : EntriesOf (fixtures.map FixtureSource.collect) reg := hreg.entry_iff
  have hdecl := resolveFixture_some huse
  obtain ⟨source, -, hsource⟩ := List.mem_map.mp hdecl.mem
  have hnamed : decl.1.qualifiedName ≠ "" := hsource ▸ source.named
  have hname := hdecl.lookupName hnamed
  have hfree := freeFixtures_resolveTest haccept (List.mem_map_of_mem ht) hparam huse
  have hsuffix : use.lookupName = decl.1.qualifiedName ↔
      (parseFixtureType param.rawType).suffix = "" := by
    rw [hname, String.append_eq_left_iff]
  have hwrapper : Selects reg use.suiteName use.lookupName decl.1 ↔
      (parseFixtureType param.rawType).suffix = "" := by
    rw [hdecl.suiteName, selects_own_iff hentries hdecl.mem hscope, hsuffix]
  have hrunner : TakesCaseFixture (resolveTest (fixtures.map FixtureSource.collect) t.collect) k →
      (Acquires reg (renderCaseEntry
        (resolveTest (fixtures.map FixtureSource.collect) t.collect)) decl.1 ↔
        (parseFixtureType param.rawType).suffix = "" ∧
          suiteScopeMatches decl.1.suiteName (suitePath t.ctx) = true ∧
            LongestMatch (fixtures.map FixtureSource.collect) (suitePath t.ctx) decl.1) := by
    intro htakes
    have hempty : use.lookupName ≠ "" := by
      rw [hname]
      intro hempty
      exact hnamed (String.append_eq_empty_iff.mp hempty).1
    rw [renderCaseEntry_takes htakes hfree (hdecl.scope.trans hscope),
      acquires_iff_selects hreg.quiet rfl hempty, selects_iff hentries hdecl.mem hscope, hsuffix,
      suiteName_resolveTest]
    rfl
  constructor
  · rintro ⟨hown, hcase⟩
    exact ⟨hwrapper.mp hown, fun htakes => ((hrunner htakes).mp (hcase htakes)).2⟩
  · rintro ⟨hplain, hcase⟩
    exact ⟨hwrapper.mpr hplain, fun htakes => (hrunner htakes).mpr ⟨hplain, hcase htakes⟩⟩

/-- A suite fixture `a::F`. -/
def suiteFixture : FixtureSource where
  ctx := [⟨some "a", none⟩]
  info :=
    { qualifiedName := "a::F", baseName := "F", scope := .suite, tuFilename := "t.cpp"
      filename := "t.cpp", entityKey := "c:@N@a@S@F" }
  named := by decide

/-- A test `a::b::t(F &)`, where `a::b` may name its own suite. -/
def nestedTest (renamed : Bool) : TestSource where
  ctx := [⟨some "b", if renamed then some "other" else none⟩, ⟨some "a", none⟩]
  info :=
    { qualifiedName := "a::b::t", tuFilename := "t.cpp", freeFixtureTypes := ["a::F"]
      freeFixtureEmitTypes := ["a::F"], freeFixtureEntityKeys := ["c:@N@a@S@F"]
      freeFixtureRequiredScopes := [some .suite] }

def suiteFixtureRegistry : SharedFixtureRegistry where
  entries :=
    [{ fixtureName := "a::F", suite := "a", scope := .suite, instancePtr := some 1
       initialized := true }]

def suiteFixtureUse : FreeFixtureUse :=
  { typeName := "a::F", registryName := "a::F", scope := .suite, suiteName := "a" }

theorem suiteFixture_runsWith (renamed : Bool) :
    RunsWith (renderFixtureRegistrations (fun _ => ⟨.suite, "", "", none, none, none⟩)
      (resolveFreeFixtures ([nestedTest renamed].map TestSource.collect)
        ([suiteFixture].map FixtureSource.collect)).fixtures) suiteFixtureRegistry := by
  refine ⟨⟨{}, rfl, ?_, ?_⟩, rfl⟩
  · cases renamed <;> decide +kernel
  · cases renamed <;> decide +kernel

theorem nestedTest_accepted (renamed : Bool) :
    (resolveFreeFixtures ([nestedTest renamed].map TestSource.collect)
      ([suiteFixture].map FixtureSource.collect)).errors = [] := by
  cases renamed <;> decide +kernel

/-- The test in its parent's suite finds the fixture. -/
theorem nested_suite_finds_fixture :
    FixtureFound suiteFixtureRegistry
      (resolveTest ([suiteFixture].map FixtureSource.collect) (nestedTest false).collect) 0
      suiteFixtureUse suiteFixture.collect := by
  refine (suite_fixture_found_iff [suiteFixture] [nestedTest false] _ _ (nestedTest_accepted false)
    (suiteFixture_runsWith false) (nestedTest false) (List.mem_singleton_self _) 0
    ⟨"a::F", "a::F", some .suite, "c:@N@a@S@F"⟩ (by decide +kernel) suiteFixtureUse
    (suiteFixture.collect, 0) (by decide +kernel) rfl).mpr ⟨by decide +kernel, fun _ => ?_⟩
  refine ⟨by decide +kernel, fun other hother _ _ _ => ?_⟩
  rw [List.map_singleton, List.mem_singleton] at hother
  rw [hother]

/-- A test in a namespace that names another suite is accepted and blocked. -/
theorem renamed_suite_misses_fixture :
    ∃ (fixtures : List FixtureSource) (t : TestSource) (callbacks : FixtureDeclInfo → Registration)
      (reg : SharedFixtureRegistry) (fx : FixtureDeclInfo),
      (resolveFreeFixtures [t.collect] (fixtures.map FixtureSource.collect)).errors = [] ∧
      RunsWith (renderFixtureRegistrations callbacks
        (resolveFreeFixtures [t.collect] (fixtures.map FixtureSource.collect)).fixtures) reg ∧
      (∀ e ∈ reg.entries, e.initialized = true ∧ e.failed = false) ∧
      fx ∈ fixtures.map FixtureSource.collect ∧ fx.scope = .suite ∧
      isVisibleFixtureForTest fx t.collect = true ∧
      (resolveTest (fixtures.map FixtureSource.collect) t.collect).freeFixtures =
        [⟨"a::F", fx.qualifiedName, .suite, fx.suiteName⟩] ∧
      acquireCaseFixture reg
        (renderCaseEntry (resolveTest (fixtures.map FixtureSource.collect) t.collect)) =
          .error "fixture not registered" := by
  refine ⟨[suiteFixture], nestedTest true, fun _ => ⟨.suite, "", "", none, none, none⟩,
    suiteFixtureRegistry, suiteFixture.collect, nestedTest_accepted true,
    suiteFixture_runsWith true, ?_, List.mem_singleton_self _, rfl, ?_, ?_, ?_⟩
  · decide
  · decide +kernel
  · decide +kernel
  · decide +kernel

end Gentest.Codegen
