import Gentest.Codegen.Outputs

/-!
# Writing the generated files

`emit` groups the discovered cases by the canonical path of their translation unit
and writes one registration file per source slot, then the manifests and the mocks.
The slots run in parallel; they share nothing, so they stand in order here. What is
written is a list of paths with what the files hold, and an empty list of errors is
the status 0.
-/

namespace Gentest.Codegen

open Sorting

-- ---------------------------------------------------------------------------
-- Files
-- ---------------------------------------------------------------------------

inductive DefinitionKind
  | headerLike
  | namedModule
  deriving DecidableEq

structure MockClassInfo where
  qualifiedName : String
  definitionFile : String := ""
  definitionKind : DefinitionKind := .headerLike
  useFiles : List String := []
  definitionModuleName : String := ""

/-- What a generated file holds, as far as it is read here: the case array and the
calls of `register_shared_fixture` of a registration file. -/
inductive FileText
  | registration (registerFn : String) (headers : List String) (cases : List TestCaseInfo)
      (fixtures : List FixtureDeclInfo)
  | noRegistrations
  | moduleImporter (moduleName header : String) (hasRegistrations : Bool)
  | other (text : String)

structure Emitted where
  writes : List (String × FileText) := []
  errors : List String := []

def Emitted.fail (error : String) : Emitted := { errors := [error] }

def Emitted.andThen (first second : Emitted) : Emitted :=
  if first.errors = [] then ⟨first.writes ++ second.writes, second.errors⟩ else first

def Emitted.all (steps : List Emitted) : Emitted := ⟨steps.flatMap (·.writes), steps.flatMap (·.errors)⟩

def Emitted.check (error : Option String) : Emitted :=
  match error with
  | some error => .fail error
  | none => {}

/-- `ensure_parent_dir` and a write. -/
def writeFile (disk : Disk) (path : String) (text : FileText) : Emitted :=
  match disk.writeError path with
  | some error => .fail error
  | none => { writes := [(path, text)] }

-- ---------------------------------------------------------------------------
-- Registration files
-- ---------------------------------------------------------------------------

section

variable (std : UnstableSort) (disk : Disk) (opts : CollectorOptions)

def normalizeCaseFile (filename : String) : String :=
  match opts.sourceRoot with
  | none => filename
  | some root => if root = "" then filename else (disk.relativeToRoot root filename).getD filename

def casesForRender (cases : List TestCaseInfo) : List TestCaseInfo :=
  cases.map fun c => { c with filename := normalizeCaseFile disk opts c.filename }

def fixturesForRender (fixtures : List FixtureDeclInfo) : List FixtureDeclInfo :=
  fixtures.map fun f => { f with filename := normalizeCaseFile disk opts f.filename }

/-- `declared_headers_by_source` at a key. -/
def declaredHeaders (cases : List TestCaseInfo) (fixtures : List FixtureDeclInfo) (key : String) : List String :=
  let ofCase (c : TestCaseInfo) := if c.registrationHeaders ≠ [] then c.registrationHeaders else [c.filename]
  let ofFixture (f : FixtureDeclInfo) := if f.registrationHeader = "" then f.filename else f.registrationHeader
  let headers := (cases.filter fun c => disk.normalizePathKey c.tuFilename = key).flatMap ofCase ++
    (fixtures.filter fun f => disk.normalizePathKey f.tuFilename = key).map ofFixture
  ((headers.filter (· ≠ "")).dedup).insertionSort (· ≤ ·)

structure PerSourceEmitData where
  cases : List TestCaseInfo
  fixtures : List FixtureDeclInfo
  directModuleMocks : List MockClassInfo
  needsMockCodegenInclude : Bool

def moduleSourceIndex (moduleName : String) : Option Nat :=
  (List.range opts.sources.length).find? fun idx =>
    opts.moduleInterfaceNamesBySource.lookup (opts.source idx) = some moduleName

def directModuleMocks (mocks : List MockClassInfo) (key : String) : List MockClassInfo :=
  mocks.filter fun mock =>
    mock.definitionKind = .namedModule ∧
      if opts.moduleRegistrationOutputs ≠ [] then
        (moduleSourceIndex opts mock.definitionModuleName).any fun idx =>
          disk.normalizePathKey (opts.source idx) = key
      else mock.definitionFile ≠ "" ∧ disk.normalizePathKey mock.definitionFile = key

/-- `per_source` at a key. The cases are sorted by display name. -/
def perSource (cases : List TestCaseInfo) (fixtures : List FixtureDeclInfo) (mocks : List MockClassInfo)
    (key : String) : PerSourceEmitData where
  cases := std.sort (fun c d => decide (c.displayName < d.displayName))
    ((casesForRender disk opts cases).filter fun c => disk.normalizePathKey c.tuFilename = key)
  fixtures := (fixturesForRender disk opts fixtures).filter fun f => disk.normalizePathKey f.tuFilename = key
  directModuleMocks := directModuleMocks disk opts mocks key
  needsMockCodegenInclude := mocks.any fun mock =>
    mock.definitionKind = .headerLike ∧ mock.useFiles.any fun file =>
      file ≠ "" ∧ disk.normalizePathKey file = key

/-- `render_registration_core`: every case has an entry, and fixtures that are not
local are registered. -/
def renderRegistration (registerFn : String) (headers : List String) (data : PerSourceEmitData) : FileText :=
  if data.cases = [] ∧ data.fixtures = [] then .noRegistrations
  else .registration registerFn headers data.cases (data.fixtures.filter fun f => f.scope ≠ .localScope)

/-- `parse_tu_index`: the digits behind `tu_`, as a 32-bit number. -/
def parseTuIndex (filename : String) : Option Nat :=
  match filename.toList with
  | 't' :: 'u' :: '_' :: rest =>
    let digits := rest.takeWhile Char.isDigit
    if digits = [] then none
    else some (digits.foldl (fun value ch => (value * 10 + (ch.toNat - '0'.toNat)) % 2 ^ 32) 0)
  | _ => none

def registerFn (index : Nat) : String :=
  let digits := toString index
  "register_tu_" ++ String.ofList (List.replicate (4 - digits.length) '0') ++ digits

def textualSlot (headers : List String) (data : PerSourceEmitData) (idx : Nat) : Emitted :=
  if isModuleInterfaceSource disk opts (opts.source idx) then
    .fail ("--textual-registration-output does not support named module source '" ++ opts.source idx ++ "'")
  else
    match opts.textualRegistrationOutputs[idx]? with
    | none => .fail "no textual registration output"
    | some out =>
      if (data.cases ≠ [] ∨ data.fixtures ≠ []) ∧ headers = [] then
        .fail ("missing declaring header for additive registration source '" ++ out ++ "'")
      else writeFile disk out (renderRegistration (registerFn (idx % 2 ^ 32)) headers data)

/-- The source that imports a module and includes its registration header. -/
def moduleRegistrationFile (data : PerSourceEmitData) (idx : Nat) : Emitted :=
  if data.needsMockCodegenInclude then
    .fail ("module registration mode does not support header-like mock auto-injection for '" ++ opts.source idx ++ "'")
  else
    match opts.moduleInterfaceNamesBySource.lookup (opts.source idx), opts.moduleRegistrationOutputs[idx]? with
    | some name, some out =>
      if name = "" then .fail ("missing module name for module registration input '" ++ opts.source idx ++ "'")
      else if data.directModuleMocks ≠ [] then
        .fail ("MODULE_REGISTRATION cannot generate direct mocks owned by named module '" ++ name ++
          "'; export a mock-provider API from the module and attach its generated implementation explicitly")
      else
        writeFile disk out (.moduleImporter name (fileName (resolveTuHeaderOutput opts idx))
          (data.cases ≠ [] ∨ data.fixtures ≠ []))
    | none, _ => .fail ("missing module name for module registration input '" ++ opts.source idx ++ "'")
    | some _, none => .fail "no module registration output"

/-- The module interface with its registration; `wrapperSource` stands for
`render_module_wrapper_source`. That a slot has an output is checked earlier. -/
def moduleWrapperFile (wrapperSource : String → PerSourceEmitData → Option String) (data : PerSourceEmitData)
    (idx : Nat) : Emitted :=
  match wrapperSource (opts.source idx) data, opts.moduleWrapperOutputs[idx]? with
  | none, _ => .fail "no module wrapper source"
  | some _, none => .fail "no module wrapper output"
  | some text, some out => writeFile disk out (.other text)

def headerSlot (wrapperSource : String → PerSourceEmitData → Option String) (data : PerSourceEmitData)
    (idx : Nat) : Emitted :=
  let index := (parseTuIndex (fileName (opts.source idx))).getD (idx % 2 ^ 32)
  (writeFile disk (resolveTuHeaderOutput opts idx) (renderRegistration (registerFn index) [] data)).andThen
    (if isModuleInterfaceSource disk opts (opts.source idx) then
      if opts.moduleRegistrationOutputs ≠ [] then moduleRegistrationFile disk opts data idx
      else moduleWrapperFile disk opts wrapperSource data idx
    else {})

/-- The checks on mocks of named modules that the registrations are to hold. -/
def mockModuleError (mocks : List MockClassInfo) : Option String :=
  let registered := mocks.filter fun mock => mock.definitionKind = .namedModule
  let modules := firstSeen (registered.map (·.definitionModuleName))
  let provided := (opts.sources.filterMap fun source => opts.moduleInterfaceNamesBySource.lookup source).filter (· ≠ "")
  if opts.moduleRegistrationOutputs = [] then none
  else
    match registered.find? fun mock => mock.definitionModuleName = "" with
    | some mock => some ("named-module mock '" ++ mock.qualifiedName ++ "' has no definition module name")
    | none =>
      match provided.find? fun name => 1 < provided.count name ∧ name ∈ modules with
      | some name => some ("multiple module registration inputs provide module '" ++ name ++
          "' for mock registration manifest")
      | none =>
        (modules.find? (· ∉ provided)).map fun name =>
          "mock registration manifest references module '" ++ name ++
            "' but no module registration input provides it"

def registrationFiles (wrapperSource : String → PerSourceEmitData → Option String) (cases : List TestCaseInfo)
    (fixtures : List FixtureDeclInfo) (mocks : List MockClassInfo) : Emitted :=
  if opts.tuOutputDir = "" then {}
  else
    (Emitted.check (disk.dirError opts.tuOutputDir)).andThen <|
    (Emitted.check (mockModuleError opts mocks)).andThen <|
    Emitted.all <| (List.range opts.sources.length).map fun idx =>
      let key := disk.normalizePathKey (opts.source idx)
      let data := perSource std disk opts cases fixtures mocks key
      if opts.textualRegistrationOutputs ≠ [] then
        textualSlot disk opts (declaredHeaders disk cases fixtures key) data idx
      else headerSlot disk opts wrapperSource data idx

-- ---------------------------------------------------------------------------
-- Manifests and mocks
-- ---------------------------------------------------------------------------

def writeModuleRegistrationManifest : Emitted :=
  if opts.artifactManifestPath = "" ∨ opts.moduleRegistrationOutputs = [] then {}
  else writeFile disk opts.artifactManifestPath (.other "cxx-module-importer-registration")

def writeTextualHeaderRegistrationManifest : Emitted :=
  if opts.artifactManifestPath = "" ∨ opts.textualRegistrationOutputs = [] then {}
  else if opts.compileContextFingerprints.length ≠ opts.sources.length then
    .fail ("additive artifact manifest expected " ++ toString opts.sources.length ++
      " compile-context fingerprints, got " ++ toString opts.compileContextFingerprints.length)
  else writeFile disk opts.artifactManifestPath (.other "cxx-header-declaration-registration")

def writeArtifactManifest : Emitted :=
  (writeModuleRegistrationManifest disk opts).andThen (writeTextualHeaderRegistrationManifest disk opts)

/-- The files of the mock domains, the header domain first; what a backend finds
wrong with the mocks is `renderError`. -/
def mockDomainFiles : Emitted :=
  ((buildMockOutputDomains disk opts).flatMap fun domain => [domain.registryPath, domain.implPath]).foldr
    (fun path rest => (writeFile disk path (.other "mock domain")).andThen rest) {}

def mockFiles (renderError : List MockClassInfo → Option String) (mocks : List MockClassInfo) : Emitted :=
  let haveMockPaths := opts.mockRegistryPath ≠ "" ∧ opts.mockImplPath ≠ ""
  if (opts.mockRegistrationManifestPath = "" ∧ mocks ≠ []) ∨ haveMockPaths then
    if ¬haveMockPaths then
      .fail "mock outputs requested but --mock-registry/--mock-impl paths were not provided"
    else
      (Emitted.check (renderError mocks)).andThen <|
      (writeFile disk opts.mockRegistryPath (.other "mock registry")).andThen <|
      (writeFile disk opts.mockImplPath (.other "mock implementation")).andThen <|
      (if opts.mockPublicHeaderPath = "" then {}
        else writeFile disk opts.mockPublicHeaderPath (.other "mock public header")).andThen <|
      mockDomainFiles disk opts
  else {}

variable (wrapperSource : String → PerSourceEmitData → Option String) (renderError : List MockClassInfo → Option String)

def emit (cases : List TestCaseInfo) (fixtures : List FixtureDeclInfo) (mocks : List MockClassInfo) : Emitted :=
  match validateGeneratedArtifactOutputs disk opts std with
  | .error error => .fail error
  | .ok _ =>
    (registrationFiles std disk opts wrapperSource cases fixtures mocks).andThen <|
    (writeArtifactManifest disk opts).andThen <|
    mockFiles disk opts renderError mocks

-- ---------------------------------------------------------------------------
-- The output phase of a run
-- ---------------------------------------------------------------------------

def writeMockAggregateModule (moduleNames : List String) : Emitted :=
  if opts.mockAggregateModulePath = "" then {}
  else if opts.mockAggregateModuleName = "" then
    .fail "--mock-aggregate-module-output requires --mock-aggregate-module-name"
  else if moduleNames = [] then
    .fail ("mock aggregate module '" ++ opts.mockAggregateModuleName ++ "' has no named module DEFS to re-export")
  else writeFile disk opts.mockAggregateModulePath (.other "mock aggregate module")

def depfileTargetsFor : List String :=
  (if opts.tuOutputDir = "" then []
    else (List.range opts.sources.length).flatMap fun idx =>
      (if opts.textualRegistrationOutputs.getD idx "" ≠ "" then [opts.textualRegistrationOutputs.getD idx ""]
        else [resolveTuHeaderOutput opts idx]) ++
      if isModuleInterfaceSource disk opts (opts.source idx) then
        if opts.moduleRegistrationOutputs ≠ [] then [opts.moduleRegistrationOutputs.getD idx ""]
        else [opts.moduleWrapperOutputs.getD idx ""]
      else []) ++
  ([opts.artifactManifestPath, opts.mockManifestOutputPath, opts.mockRegistryPath, opts.mockImplPath,
    opts.mockPublicHeaderPath, opts.mockAggregateModulePath] ++
    (buildMockOutputDomains disk opts).flatMap fun domain => [domain.registryPath, domain.implPath]).filter (· ≠ "")

def writeDepfile : Emitted :=
  match opts.depfilePath with
  | none => {}
  | some path =>
    if path = "" ∨ depfileTargetsFor disk opts = [] then {} else writeFile disk path (.other "depfile")

/-- A run that only writes down the mocks it found. -/
def CollectorOptions.mockManifestDiscoveryOnly : Bool :=
  opts.mockManifestOutputPath ≠ "" ∧ opts.tuOutputDir = "" ∧ opts.mockManifestInputPath = ""

/-- Everything that is written once the sources are scanned, or the mocks are read
from a manifest. `moduleNames` are the modules of the mocks' output domains. -/
def outputPhase (moduleNames : List String) (cases : List TestCaseInfo) (fixtures : List FixtureDeclInfo)
    (mocks : List MockClassInfo) : Emitted :=
  (if opts.mockManifestOutputPath = "" then {}
    else writeFile disk opts.mockManifestOutputPath (.other "mock manifest")).andThen <|
  if opts.mockManifestDiscoveryOnly then writeDepfile disk opts
  else if opts.mockAggregateModulePath ≠ "" ∧ ¬mocks.any (·.definitionKind = .namedModule) then
    .fail ("mock aggregate module '" ++ opts.mockAggregateModuleName ++ "' has no named-module mocks to re-export")
  else
    (writeMockAggregateModule disk opts moduleNames).andThen <|
    (emit std disk opts wrapperSource renderError cases fixtures mocks).andThen <|
    writeDepfile disk opts

end

end Gentest.Codegen
