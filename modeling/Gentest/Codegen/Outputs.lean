import Gentest.Codegen.CodegenModel
import Gentest.Lib.Sorting
import Mathlib.Data.Prod.Lex
import Mathlib.Data.String.Basic

/-!
# Outputs that the options ask for

The options of a run name its inputs and its outputs, slot by slot or one by one.
Before anything is written `validate_generated_artifact_outputs` compares the
canonical paths of the outputs it knows of with each other and with the inputs it
knows of. Paths are written with `/`.
-/

namespace Gentest.Codegen

open Sorting

-- ---------------------------------------------------------------------------
-- Options
-- ---------------------------------------------------------------------------

/-- The options that decide on inputs and outputs. An empty path is one that was
not given. -/
structure CollectorOptions where
  tuOutputDir : String := ""
  tuOutputHeaders : List String := []
  moduleWrapperOutputs : List String := []
  moduleRegistrationOutputs : List String := []
  textualRegistrationOutputs : List String := []
  compileContextFingerprints : List String := []
  artifactManifestPath : String := ""
  mockDomainRegistryOutputs : List String := []
  mockDomainImplOutputs : List String := []
  mockOutputDomainModules : List String := []
  mockManifestOutputPath : String := ""
  mockManifestInputPath : String := ""
  mockRegistrationManifestPath : String := ""
  mockRegistryPath : String := ""
  mockImplPath : String := ""
  mockPublicHeaderPath : String := ""
  mockAggregateModulePath : String := ""
  mockAggregateModuleName : String := ""
  depfilePath : Option String := none
  sources : List String := []
  moduleInterfaceNamesBySource : List (String × String) := []
  moduleInterfaceSources : List String := []
  explicitModuleSourcesByName : List (String × List String) := []
  sourceRoot : Option String := none

structure Disk where
  /-- `normalize_path_key`: the canonical absolute path. -/
  normalizePathKey : String → String
  /-- The module that a file declares, as `named_module_name_from_source_file`
  reads it. -/
  namedModuleNameFromSourceFile : String → Option String
  /-- Below the source root, the path relative to it. -/
  relativeToRoot : String → String → Option String
  /-- What goes wrong when a directory or a file is written, if anything does. -/
  dirError : String → Option String
  writeError : String → Option String
  emptyPath : writeError "" ≠ none

def Disk.casefoldedPathKey (disk : Disk) (path : String) : String := (disk.normalizePathKey path).map Char.toLower

-- ---------------------------------------------------------------------------
-- Paths of outputs
-- ---------------------------------------------------------------------------

variable (disk : Disk) (opts : CollectorOptions)

def CollectorOptions.source (idx : Nat) : String := opts.sources.getD idx ""

def resolveTuHeaderOutput (idx : Nat) : String :=
  if opts.tuOutputHeaders.getD idx "" ≠ "" then opts.tuOutputHeaders.getD idx ""
  else joinPath opts.tuOutputDir (replaceExtension (fileName (opts.source idx)) ".h")

def isModuleInterfaceSource (path : String) : Bool :=
  opts.moduleInterfaceSources.contains path || (disk.namedModuleNameFromSourceFile path).isSome

-- ---------------------------------------------------------------------------
-- Checked outputs
-- ---------------------------------------------------------------------------

inductive SlotRole
  | tuHeader
  | textualRegistration
  | moduleWrapper
  | moduleRegistration
  | mockDomainRegistry
  | mockDomainImpl
  deriving DecidableEq

inductive OptionRole
  | artifactManifest
  | mockRegistry
  | mockImpl
  | mockPublicHeader
  | mockAggregateModule
  | mockManifest
  | depfile
  deriving DecidableEq

/-- An output that the check knows of: one of a list of paths, or that of an
option. -/
inductive Artifact
  | slot (role : SlotRole) (idx : Nat)
  | single (role : OptionRole)
  deriving DecidableEq

def Artifact.path : Artifact → String
  | .slot .tuHeader idx => resolveTuHeaderOutput opts idx
  | .slot .textualRegistration idx => opts.textualRegistrationOutputs.getD idx ""
  | .slot .moduleWrapper idx => opts.moduleWrapperOutputs.getD idx ""
  | .slot .moduleRegistration idx => opts.moduleRegistrationOutputs.getD idx ""
  | .single .artifactManifest => opts.artifactManifestPath
  | .single .mockRegistry => opts.mockRegistryPath
  | .single .mockImpl => opts.mockImplPath
  | .single .mockPublicHeader => opts.mockPublicHeaderPath
  | .single .mockAggregateModule => opts.mockAggregateModulePath
  | .single .mockManifest => opts.mockManifestOutputPath
  | .single .depfile => opts.depfilePath.getD ""
  | .slot .mockDomainRegistry idx => opts.mockDomainRegistryOutputs.getD idx ""
  | .slot .mockDomainImpl idx => opts.mockDomainImplOutputs.getD idx ""

def SlotRole.name : SlotRole → String
  | .tuHeader => "TU registration header"
  | .textualRegistration => "textual header registration"
  | .moduleWrapper => "module wrapper"
  | .moduleRegistration => "module registration"
  | .mockDomainRegistry => "mock domain registry"
  | .mockDomainImpl => "mock domain implementation"

def OptionRole.name : OptionRole → String
  | .artifactManifest => "artifact manifest"
  | .mockRegistry => "mock registry"
  | .mockImpl => "mock implementation"
  | .mockPublicHeader => "mock public header"
  | .mockAggregateModule => "mock aggregate module"
  | .mockManifest => "mock manifest"
  | .depfile => "depfile"

def Artifact.role : Artifact → String
  | .slot role _ => role.name
  | .single role => role.name

def sourceOwner (idx : Nat) (option : String) : String :=
  "source slot " ++ toString idx ++ " '" ++ opts.source idx ++ "' (" ++ option ++ ")"

def mockDomainOwner (idx : Nat) (option : String) : String :=
  "mock output domain slot " ++ toString idx ++ " " ++
    (if idx = 0 then "'header' (" ++ option ++ ")"
    else
      match opts.mockOutputDomainModules[idx - 1]? with
      | some name => "module '" ++ name ++ "' (" ++ option ++ ")"
      | none => "(" ++ option ++ ")")

def Artifact.owner : Artifact → String
  | .slot .tuHeader idx =>
    sourceOwner opts idx
      (if opts.tuOutputHeaders.getD idx "" ≠ "" then "--tu-header-output" else "derived from --tu-out-dir")
  | .slot .textualRegistration idx => sourceOwner opts idx "--textual-registration-output"
  | .slot .moduleWrapper idx => sourceOwner opts idx "--module-wrapper-output"
  | .slot .moduleRegistration idx => sourceOwner opts idx "--module-registration-output"
  | .single .artifactManifest => "option '--artifact-manifest'"
  | .single .mockRegistry => "option '--mock-registry'"
  | .single .mockImpl => "option '--mock-impl'"
  | .single .mockPublicHeader => "option '--mock-public-header'"
  | .single .mockAggregateModule => "option '--mock-aggregate-module-output'"
  | .single .mockManifest => "option '--mock-manifest-output'"
  | .single .depfile => "option '--depfile'"
  | .slot .mockDomainRegistry idx => mockDomainOwner opts idx "--mock-domain-registry-output"
  | .slot .mockDomainImpl idx => mockDomainOwner opts idx "--mock-domain-impl-output"

/-- `GeneratedArtifact` and `ReservedInput`. -/
structure OwnedPath where
  canonicalPath : String
  role : String
  owner : String
  deriving DecidableEq

def OwnedPath.lexKey (p : OwnedPath) : String ×ₗ String ×ₗ String :=
  toLex (p.canonicalPath, toLex (p.role, p.owner))

def OwnedPath.less (p q : OwnedPath) : Bool := decide (p.lexKey < q.lexKey)

def addArtifact (a : Artifact) : Except String OwnedPath :=
  if a.path opts = "" then
    .error ("generated artifact output is empty for role '" ++ a.role ++ "' owned by " ++ a.owner opts)
  else .ok ⟨disk.casefoldedPathKey (a.path opts), a.role, a.owner opts⟩

def headerArtifacts : List Artifact :=
  if opts.tuOutputDir ≠ "" ∧ opts.textualRegistrationOutputs = [] then
    (List.range opts.sources.length).map (.slot .tuHeader)
  else []

def textualArtifacts : List Artifact :=
  (List.range opts.textualRegistrationOutputs.length).map (.slot .textualRegistration)

/-- CMake passes a wrapper output for every slot. Only those of module interfaces
are written by the emitter. -/
def wrapperArtifacts : List Artifact :=
  ((List.range opts.moduleWrapperOutputs.length).filter fun idx =>
    isModuleInterfaceSource disk opts (opts.source idx) && (Artifact.slot .moduleWrapper idx).path opts != "").map (.slot .moduleWrapper)

def wrapperError : Option String :=
  ((List.range opts.moduleWrapperOutputs.length).find? fun idx =>
    opts.moduleInterfaceSources.contains (opts.source idx) && (Artifact.slot .moduleWrapper idx).path opts == "").map fun idx =>
      "generated artifact output is empty for role 'module wrapper' owned by source slot " ++ toString idx ++ " '" ++
        opts.source idx ++ "' (--module-wrapper-output)"

def registrationArtifacts : List Artifact :=
  (List.range opts.moduleRegistrationOutputs.length).map (.slot .moduleRegistration)

/-- Artifacts of single options; one that was not given is passed over. -/
def optionArtifacts : List Artifact :=
  ([.artifactManifest, .mockRegistry, .mockImpl, .mockPublicHeader, .mockAggregateModule, .mockManifest, .depfile].map
    Artifact.single).filter fun a => a.path opts ≠ ""

def domainArtifacts : List Artifact :=
  (List.range opts.mockDomainRegistryOutputs.length).flatMap fun idx => [.slot .mockDomainRegistry idx, .slot .mockDomainImpl idx]

/-- The inputs that the check knows of, with role and owner. -/
def knownInputs : List (String × String × String) :=
  (opts.sources.zipIdx.map fun s =>
      (s.1, "input source", "source slot " ++ toString s.2 ++ " '" ++ s.1 ++ "'")) ++
    [(opts.mockManifestInputPath, "mock manifest input",
      "option '--mock-manifest-input' ('" ++ opts.mockManifestInputPath ++ "')")] ++
    opts.explicitModuleSourcesByName.flatMap fun entry =>
      entry.2.map fun path =>
        (path, "external module source", "external module source for '" ++ entry.1 ++ "' ('" ++ path ++ "')")

def reservedInputs : List OwnedPath :=
  (knownInputs opts).filterMap fun input =>
    if input.1 = "" then none else some ⟨disk.casefoldedPathKey input.1, input.2.1, input.2.2⟩

def validateSourceAlignment (paths : List String) (option : String) : Except String Unit :=
  if paths = [] ∨ paths.length = opts.sources.length then .ok ()
  else
    .error ("generated artifact output alignment for " ++ option ++ " expected " ++ toString opts.sources.length ++
      " slot(s), got " ++ toString paths.length)

/-- The first artifact that takes the place of an input, in the order of the
artifacts. -/
def inputConflict (inputs artifacts : List OwnedPath) : Option String :=
  artifacts.findSome? fun artifact =>
    (inputs.find? fun input => input.canonicalPath = artifact.canonicalPath).map fun input =>
      "generated artifact output at canonical path '" ++ artifact.canonicalPath ++ "': role '" ++ artifact.role ++
        "' owned by " ++ artifact.owner ++ " conflicts with " ++ input.role ++ " owned by " ++ input.owner

def collision : List OwnedPath → Option String
  | first :: second :: rest =>
    if first.canonicalPath ≠ second.canonicalPath ∨ (first.role = second.role ∧ first.owner = second.owner) then
      collision (second :: rest)
    else
      some ("generated artifact collision at canonical path '" ++ first.canonicalPath ++ "': role '" ++ first.role ++
        "' owned by " ++ first.owner ++ " conflicts with role '" ++ second.role ++ "' owned by " ++ second.owner ++
        if first.role = "TU registration header" ∧ second.role = "TU registration header" then
          "; multiple sources map to the same TU output header"
        else "")
  | _ => none

def ensure (condition : Bool) (error : String) : Except String Unit := if condition then .ok () else .error error

def refuse (error : Option String) : Except String Unit :=
  match error with
  | some error => .error error
  | none => .ok ()

def validateGeneratedArtifactOutputs (std : UnstableSort) : Except String Unit := do
  ensure (opts.tuOutputDir != "" || (opts.tuOutputHeaders ++ opts.textualRegistrationOutputs ++
      opts.moduleWrapperOutputs ++ opts.moduleRegistrationOutputs).isEmpty)
    "source-associated generated artifact outputs require --tu-out-dir"
  validateSourceAlignment opts opts.tuOutputHeaders "--tu-header-output"
  validateSourceAlignment opts opts.textualRegistrationOutputs "--textual-registration-output"
  validateSourceAlignment opts opts.moduleWrapperOutputs "--module-wrapper-output"
  validateSourceAlignment opts opts.moduleRegistrationOutputs "--module-registration-output"
  let headers ← (headerArtifacts opts).mapM (addArtifact disk opts)
  let textual ← (textualArtifacts opts).mapM (addArtifact disk opts)
  refuse (wrapperError opts)
  let wrappers ← (wrapperArtifacts disk opts).mapM (addArtifact disk opts)
  let registrations ← (registrationArtifacts opts).mapM (addArtifact disk opts)
  let options ← (optionArtifacts opts).mapM (addArtifact disk opts)
  ensure (opts.mockDomainRegistryOutputs.length == opts.mockDomainImplOutputs.length)
    ("generated artifact output alignment for explicit mock domains expected matching registry/implementation slots, got " ++
      toString opts.mockDomainRegistryOutputs.length ++ " and " ++ toString opts.mockDomainImplOutputs.length)
  let domains ← (domainArtifacts opts).mapM (addArtifact disk opts)
  let artifacts := headers ++ textual ++ wrappers ++ registrations ++ options ++ domains
  refuse (inputConflict (std.sort OwnedPath.less (reservedInputs disk opts)) artifacts)
  refuse (collision (std.sort OwnedPath.less artifacts))

-- ---------------------------------------------------------------------------
-- Mock domains
-- ---------------------------------------------------------------------------

inductive DomainKind
  | header
  | namedModule
  deriving DecidableEq

structure MockOutputDomainPlan where
  kind : DomainKind := .header
  moduleName : String := ""
  registryPath : String := ""
  implPath : String := ""

/-- The names that are not empty, each where it is first seen. -/
def firstSeen (names : List String) : List String :=
  names.foldl (fun seen name => if name = "" ∨ name ∈ seen then seen else seen ++ [name]) []

def moduleNameOf (source : String) : Option String :=
  match opts.moduleInterfaceNamesBySource.lookup source with
  | some name => some name
  | none => disk.namedModuleNameFromSourceFile source

/-- `mock_domain_modules_from_context`. -/
def mockDomainModulesFromContext : List String := firstSeen (opts.sources.filterMap (moduleNameOf disk opts))

def describeMockOutputDomains : List MockOutputDomainPlan :=
  if opts.mockRegistryPath = "" ∧ opts.mockImplPath = "" then []
  else if opts.mockRegistryPath = "" ∨ opts.mockImplPath = "" then [{}]
  else
    {} ::
      (if opts.mockOutputDomainModules ≠ [] then firstSeen opts.mockOutputDomainModules
      else mockDomainModulesFromContext disk opts).map fun name => { kind := .namedModule, moduleName := name }

def buildMockOutputDomains : List MockOutputDomainPlan :=
  (describeMockOutputDomains disk opts).zipIdx.map fun (domain, idx) =>
    if idx < opts.mockDomainRegistryOutputs.length ∧ idx < opts.mockDomainImplOutputs.length then
      { domain with
        registryPath := opts.mockDomainRegistryOutputs.getD idx ""
        implPath := opts.mockDomainImplOutputs.getD idx "" }
    else domain

end Gentest.Codegen
