import Gentest.Codegen.CodegenModel
import Gentest.Fixture.Lifecycle

/-!
# Resolving the fixtures of a test

`resolve_free_fixtures` finds the declaration for each fixture parameter of a
test. The generated code asks for a shared fixture twice: the runner with the
suite of the case, the wrapper with the suite of the fixture.
-/

namespace Gentest.Codegen

open Fixture (Registration SharedFixtureRegistry SharedFixtureScope getSharedFixture)
open Runner (FixtureLifetime)

-- ---------------------------------------------------------------------------
-- Fixture types
-- ---------------------------------------------------------------------------

structure ParsedFixtureType where
  base : String
  suffix : String
  full : String
  qualified : Bool
  deriving DecidableEq, Repr

def containsColons : List Char → Bool
  | ':' :: ':' :: _ => true
  | _ :: text => containsColons text
  | [] => false

def parseFixtureType (text : String) : ParsedFixtureType :=
  let full := trimView text.toList
  let base := trimView (full.takeWhile (· ≠ '<'))
  { base := String.ofList base
    suffix := String.ofList (full.dropWhile (· ≠ '<'))
    full := String.ofList full
    qualified := containsColons base }

def stripLeadingColons (text : String) : String :=
  match text.toList with
  | ':' :: ':' :: rest => String.ofList rest
  | _ => text

def builtinTypes : List String :=
  ["bool", "char", "char8_t", "char16_t", "char32_t", "wchar_t", "signed char", "short",
    "short int", "int", "long", "long int", "long long", "long long int", "unsigned char",
    "unsigned short", "unsigned short int", "unsigned", "unsigned int", "unsigned long",
    "unsigned long int", "unsigned long long", "unsigned long long int", "float", "double",
    "long double"]

def deriveLocalFixtureTypeName (parsed : ParsedFixtureType) (test : TestCaseInfo) : String :=
  if parsed.qualified then parsed.full
  else if builtinTypes.contains parsed.base then parsed.full
  else
    let nsPrefix := "::".intercalate test.namespaceParts
    if nsPrefix = "" then parsed.base ++ parsed.suffix
    else nsPrefix ++ "::" ++ parsed.base ++ parsed.suffix

-- ---------------------------------------------------------------------------
-- Lookup
-- ---------------------------------------------------------------------------

abbrev FixtureDecl := FixtureDeclInfo × Nat

def isVisibleFixtureForTest (fixture : FixtureDeclInfo) (test : TestCaseInfo) : Bool :=
  fixture.namespaceParts.isPrefixOf test.namespaceParts

/-- The declarations that the scan of one file found. -/
def fixtureLookup (fixtures : List FixtureDeclInfo) (tu : String) : List FixtureDecl :=
  fixtures.zipIdx.filter fun decl => decl.1.tuFilename = tu

def findByEntity (fixtures : List FixtureDeclInfo) (entity : String) : Option FixtureDecl :=
  if entity = "" then none else fixtures.zipIdx.find? fun decl => decl.1.entityKey = entity

def findByQualified (lookup : List FixtureDecl) (name : String) : Option FixtureDecl :=
  if name = "" then none else lookup.reverse.find? fun decl => decl.1.qualifiedName = name

def findBestVisibleFixture (lookup : List FixtureDecl) (base : String) (test : TestCaseInfo) :
    Option FixtureDecl :=
  lookup.foldl (fun best decl =>
    if decl.1.baseName = base ∧ isVisibleFixtureForTest decl.1 test ∧
        best.all (fun b => decl.1.namespaceParts.length > b.1.namespaceParts.length) then some decl
    else best) none

def FixtureScope.name : FixtureScope → String
  | .localScope => "local"
  | .suite => "suite"
  | .global => "global"

/-- A fixture parameter of a test: its position and what the collector found
out about it. -/
structure FixtureParam where
  rawType : String
  emitType : String
  requiredScope : Option FixtureScope
  entity : String
  deriving DecidableEq, Repr

def TestCaseInfo.fixtureParams (test : TestCaseInfo) : List FixtureParam :=
  test.freeFixtureTypes.zipIdx.map fun raw =>
    { rawType := raw.1
      emitType := test.freeFixtureEmitTypes.getD raw.2 raw.1
      requiredScope := test.freeFixtureRequiredScopes.getD raw.2 none
      entity := test.freeFixtureEntityKeys.getD raw.2 "" }

/-- The use of a fixture, and the declaration when it is a shared one. -/
abbrev Resolved := FreeFixtureUse × Option FixtureDecl

def emitLocal (param : FixtureParam) (typeName : String) : Except String Resolved :=
  match param.requiredScope with
  | some scope =>
    .error s!"fixture '{(parseFixtureType param.rawType).full}' is declared as '{scope.name}' but resolved as local; ensure the fixture declaration is visible and in an ancestor namespace"
  | none => .ok ({ typeName }, none)

def FixtureParam.visibleType (param : FixtureParam) : String :=
  if param.emitType = param.rawType then "" else (parseFixtureType param.emitType).full

def emitDeclared (param : FixtureParam) (decl : FixtureDecl) : Except String Resolved :=
  let parsed := parseFixtureType param.rawType
  let registryName := decl.1.qualifiedName ++ parsed.suffix
  let use : FreeFixtureUse :=
    { typeName := if param.visibleType = "" then registryName else param.visibleType
      registryName, scope := decl.1.scope, suiteName := decl.1.suiteName }
  match param.requiredScope with
  | some scope =>
    if decl.1.scope ≠ scope then
      .error s!"fixture '{parsed.full}' declared as '{scope.name}' but resolved as '{decl.1.scope.name}' via '{decl.1.qualifiedName}'"
    else .ok (use, some decl)
  | none => .ok (use, some decl)

def emitIfVisible (test : TestCaseInfo) (param : FixtureParam) (name : String)
    (decl : FixtureDecl) : Except String Resolved :=
  if isVisibleFixtureForTest decl.1 test then emitDeclared param decl
  else .error s!"fixture '{name}' is not in an ancestor namespace of this test"

def resolveFixture (fixtures : List FixtureDeclInfo) (test : TestCaseInfo) (param : FixtureParam) :
    Except String Resolved :=
  let parsed := parseFixtureType param.rawType
  let lookup := fixtureLookup fixtures test.tuFilename
  let localType := deriveLocalFixtureTypeName (parseFixtureType param.emitType) test
  if parsed.base = "" then .error "empty inferred fixture type from function signature"
  else
    match findByEntity fixtures param.entity with
    | some decl => emitIfVisible test param parsed.full decl
    | none =>
      if lookup.isEmpty then emitLocal param localType
      else if parsed.qualified then
        match findByQualified lookup (stripLeadingColons parsed.base) with
        | some decl => emitIfVisible test param (stripLeadingColons parsed.base) decl
        | none => emitLocal param (parseFixtureType param.emitType).full
      else
        match findBestVisibleFixture lookup parsed.base test with
        | some decl => emitDeclared param decl
        | none =>
          if lookup.any (fun decl => decl.1.baseName = parsed.base) then
            .error s!"fixture '{parsed.base}' is not in an ancestor namespace of this test"
          else emitLocal param localType

-- ---------------------------------------------------------------------------
-- All tests
-- ---------------------------------------------------------------------------

def TestCaseInfo.report (test : TestCaseInfo) (message : String) : String :=
  s!"gentest_codegen: {test.filename}:{test.line}: {message} (test {test.displayName})"

/-- The parameters of a test that are resolved. Resolution reads no field that
it changes, so it looks at the declarations as they came. -/
def resolvedUses (fixtures : List FixtureDeclInfo) (test : TestCaseInfo) : List Resolved :=
  test.fixtureParams.filterMap fun param => (resolveFixture fixtures test param).toOption

def useErrors (fixtures : List FixtureDeclInfo) (test : TestCaseInfo) : List String :=
  test.fixtureParams.filterMap fun param =>
    match resolveFixture fixtures test param with
    | .ok _ => none
    | .error message => some (test.report message)

/-- The headers of the declarations used, without repetition. -/
def usedHeaders (uses : List Resolved) : List String :=
  uses.foldl (fun headers use =>
    match use.2 with
    | some decl =>
      if decl.1.filename ≠ "" ∧ decl.1.filename ∉ headers then headers ++ [decl.1.filename]
      else headers
    | none => headers) []

def resolveTest (fixtures : List FixtureDeclInfo) (test : TestCaseInfo) : TestCaseInfo :=
  if test.freeFixtureTypes = [] then { test with registrationHeaders := [] }
  else
    let uses := resolvedUses fixtures test
    { test with freeFixtures := uses.map Prod.fst, registrationHeaders := usedHeaders uses }

def testErrors (fixtures : List FixtureDeclInfo) (test : TestCaseInfo) : List String :=
  if test.freeFixtureTypes = [] then []
  else
    let shared := (resolvedUses fixtures test).countP fun use => use.1.scope ≠ .localScope
    useErrors fixtures test ++
      if test.returnsAsync && decide (shared > 1) then
        [test.report "async tests may depend on at most one suite/global fixture parameter; multiple shared fixture parameters would make execution order parameter-dependent"]
      else []

/-- A use through an exported alias names the type for the registration of a
fixture that importers cannot reach. -/
def nameRegistration (visibleType : String) (fixture : FixtureDeclInfo) : FixtureDeclInfo :=
  if !fixture.importerReachable ∧ visibleType ≠ "" ∧
      (fixture.registrationTypeName = "" ∨ visibleType < fixture.registrationTypeName) then
    { fixture with registrationTypeName := visibleType }
  else fixture

def nameUse (fixtures : List FixtureDeclInfo) (test : TestCaseInfo) (named : List FixtureDeclInfo)
    (param : FixtureParam) : List FixtureDeclInfo :=
  match resolveFixture fixtures test param with
  | .ok (_, some decl) => named.modify decl.2 (nameRegistration param.visibleType)
  | _ => named

def registeredFixtures (cases : List TestCaseInfo) (fixtures : List FixtureDeclInfo) :
    List FixtureDeclInfo :=
  cases.foldl (fun named test => test.fixtureParams.foldl (nameUse fixtures test) named) fixtures

def unreachableErrors (fixtures : List FixtureDeclInfo) : List String :=
  fixtures.filterMap fun fixture =>
    if !fixture.importerReachable && fixture.registrationTypeName == "" then
      some s!"gentest_codegen: {fixture.filename}:{fixture.line}: shared fixture '{fixture.qualifiedName}' is not reachable after importing its named module; export the fixture definition or use an exported alias from a registered case"
    else none

structure Resolution where
  errors : List String
  cases : List TestCaseInfo
  fixtures : List FixtureDeclInfo
  deriving Repr

def resolveFreeFixtures (cases : List TestCaseInfo) (fixtures : List FixtureDeclInfo) : Resolution where
  errors := cases.flatMap (testErrors fixtures) ++ unreachableErrors (registeredFixtures cases fixtures)
  cases := cases.map (resolveTest fixtures)
  fixtures := registeredFixtures cases fixtures

-- ---------------------------------------------------------------------------
-- The generated code
-- ---------------------------------------------------------------------------

def sharedFixtureLifetime : FixtureScope → FixtureLifetime
  | .suite => .memberSuite
  | .global => .memberGlobal
  | .localScope => .none

def FreeFixtureUse.lookupName (use : FreeFixtureUse) : String :=
  if use.registryName = "" then use.typeName else use.registryName

def caseGroupingFixture (test : TestCaseInfo) : String × FixtureLifetime :=
  if test.fixtureQualifiedName ≠ "" then (test.fixtureQualifiedName, test.fixtureLifetime)
  else
    match test.freeFixtures.find? fun use => use.scope ≠ .localScope with
    | some use => (use.lookupName, sharedFixtureLifetime use.scope)
    | none => ("", .none)

/-- What the runner reads of an emitted case. The text of a literal is the
string it was rendered from. -/
structure EmittedCase where
  fixture : String
  fixtureLifetime : FixtureLifetime
  suite : String
  deriving DecidableEq, Repr

def renderCaseEntry (test : TestCaseInfo) : EmittedCase where
  fixture := (caseGroupingFixture test).1
  fixtureLifetime := (caseGroupingFixture test).2
  suite := test.suiteName

/-- The scope and the names of an emitted `register_shared_fixture` call; its
callbacks are those of the type. -/
def renderFixtureRegistration (callbacks : FixtureDeclInfo → Registration) (fx : FixtureDeclInfo) :
    Option Registration :=
  match fx.scope with
  | .localScope => none
  | .suite =>
    some { callbacks fx with scope := .suite, suite := fx.suiteName, fixtureName := fx.qualifiedName }
  | .global =>
    some { callbacks fx with scope := .global, suite := "", fixtureName := fx.qualifiedName }

def renderFixtureRegistrations (callbacks : FixtureDeclInfo → Registration)
    (fixtures : List FixtureDeclInfo) : List Registration :=
  fixtures.filterMap (renderFixtureRegistration callbacks)

/-- What the runner does for a case before it runs: nothing, or it asks for the
fixture. -/
def acquireCaseFixture (reg : SharedFixtureRegistry) (c : EmittedCase) :
    Except String (Option Fixture.Address) :=
  match c.fixtureLifetime with
  | .none | .memberEphemeral => .ok none
  | lifetime =>
    if c.fixture = "" then .error "fixture allocation returned null"
    else
      let scope : SharedFixtureScope := if lifetime = .memberSuite then .suite else .global
      match getSharedFixture reg scope c.suite c.fixture with
      | (some p, _) => .ok (some p)
      | (none, reason) => .error (if reason = "" then "fixture allocation returned null" else reason)

end Gentest.Codegen
