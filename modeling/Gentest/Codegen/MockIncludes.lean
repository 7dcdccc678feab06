import Gentest.Codegen.IncludePaths
import Gentest.Codegen.MockManifest

/-!
# Includes of the generated mocks

`render_mocks` writes the header domain's registry and implementation where two options say,
and dispatchers that include them where two other options say. The paths in its includes are
relative to the directory of `--mock-registry`, and the dispatchers name files without a
directory. Of a generated file only its quoted includes are kept.
-/

namespace Gentest.Codegen.MockIncludes

open LexicalPath MockManifest Sorting

-- ---------------------------------------------------------------------------
-- Mock domains
-- ---------------------------------------------------------------------------

def validateMockOutputDomains (disk : Disk) (opts : CollectorOptions) : Except String Unit :=
  if opts.mockDomainRegistryOutputs = [] ∧ opts.mockDomainImplOutputs = [] then
    if opts.mockRegistryPath ≠ "" ∧ opts.mockImplPath ≠ "" then
      .error "mock outputs require explicit --mock-domain-registry-output/--mock-domain-impl-output paths"
    else .ok ()
  else if opts.mockDomainRegistryOutputs = [] ∨ opts.mockDomainImplOutputs = [] then
    .error ("explicit mock domain outputs require matching --mock-domain-registry-output and " ++
      "--mock-domain-impl-output lists")
  else if opts.mockRegistryPath = "" ∨ opts.mockImplPath = "" then
    .error "explicit mock domain outputs require both --mock-registry and --mock-impl"
  else
    let expected := (describeMockOutputDomains disk opts).length
    if opts.mockDomainRegistryOutputs.length ≠ expected ∨ opts.mockDomainImplOutputs.length ≠ expected then
      .error ("expected " ++ toString expected ++ " --mock-domain-registry-output/--mock-domain-impl-output value(s) " ++
        "for discovered mock output domains, got " ++ toString opts.mockDomainRegistryOutputs.length ++ " and " ++
        toString opts.mockDomainImplOutputs.length)
    else .ok ()

-- ---------------------------------------------------------------------------
-- Includes of definitions
-- ---------------------------------------------------------------------------

def lexicallyNormal (steps : List (Step FileName)) : List (Step FileName) :=
  let normal := steps.foldl (fun front step =>
    match step, front.getLast? with
    | .here, _ => front
    | .up, some (.name _) => front.dropLast
    | step, _ => front ++ [step]) []
  if normal = [] then [.here] else normal

/-- `lexically_relative` of two relative paths; `none` for the empty path. -/
def lexicallyRelative (path base : List (Step FileName)) : Option (List (Step FileName)) :=
  let shared := common path base
  let rest := base.drop shared
  let ups := rest.count .up
  let names := rest.length - ups - rest.count .here
  if names < ups then none
  else if names = ups ∧ path.drop shared = [] then some [.here]
  else some (List.replicate (names - ups) .up ++ path.drop shared)

def normalizeAbsoluteLexical (vol : Volume) (path : String) : List FileName :=
  walk (if isRooted path then [] else vol.current) (stepsOf path)

def SpelledPath.text (path : SpelledPath) : String :=
  absoluteText path.names ++ if path.trailing ∧ path.names ≠ [] then "/" else ""

def SpelledPath.relativeTo (path : SpelledPath) (base : List FileName) : String :=
  let steps := relative path.names base
  relativeText steps ++ if path.trailing ∧ steps ≠ [.here] then "/" else ""

section

variable (opts : CollectorOptions) (aliases : List SourcePathAlias)

def registryDir : String :=
  if parentPath opts.mockRegistryPath = "" then "." else parentPath opts.mockRegistryPath

/-- What stands in the include of a definition. A path of one kind is not relative to one of
the other kind. -/
def includePath (definitionFile : String) : String :=
  let visible := remapToVisibleSourcePath (walk [] (stepsOf definitionFile)) aliases
  let definition := lexicallyNormal (stepsOf definitionFile)
  match isRooted definitionFile, isRooted (registryDir opts) with
  | true, true => SpelledPath.relativeTo visible (walk [] (stepsOf (registryDir opts)))
  | true, false => SpelledPath.text visible
  | false, true => relativeText definition
  | false, false =>
    relativeText ((lexicallyRelative definition (lexicallyNormal (stepsOf (registryDir opts)))).getD definition)

def definitionInclude (mock : MockInfo) : Except String (List String) :=
  match mock.definitionKind with
  | .namedModule => .ok []
  | .headerLike =>
    if mock.definitionFile = "" then
      .error ("mock renderer: missing definition file for '" ++ mock.qualifiedName ++ "'")
    else .ok [includePath opts aliases mock.definitionFile]

def buildDefinitionIncludeBlock (classes : List MockInfo) : Except String (List String) :=
  (classes.mapM (definitionInclude opts aliases)).map fun paths => paths.flatten.dedup.insertionSort (· ≤ ·)

end

-- ---------------------------------------------------------------------------
-- The generated files
-- ---------------------------------------------------------------------------

structure MockGeneratedFile where
  path : String
  includes : List String

/-- The two dispatchers, by what they include, and the files of the domains. -/
structure MockOutputs where
  registryHeader : List String
  implementationUnit : List String
  additionalFiles : List MockGeneratedFile

def generateDispatcherHeader (includedFile : String) : List String := [fileName includedFile]

def byQualifiedName (std : UnstableSort) (mocks : List MockInfo) : List MockInfo :=
  std.sort (fun a b => a.qualifiedName < b.qualifiedName) mocks

def withDispatchers (domains : List MockOutputDomainPlan) (files : List MockGeneratedFile) : Except String MockOutputs :=
  match domains.find? (·.kind = .header) with
  | none => .error "mock renderer: internal error: missing header mock domain"
  | some domain =>
    .ok
      { registryHeader := generateDispatcherHeader domain.registryPath
        implementationUnit := generateDispatcherHeader domain.implPath
        additionalFiles := files }

section

variable (std : UnstableSort) (opts : CollectorOptions) (aliases : List SourcePathAlias) (mocks : List MockInfo)

def domainClasses (domain : MockOutputDomainPlan) : List MockInfo :=
  (byQualifiedName std mocks).filter fun mock =>
    match domain.kind with
    | .header => mock.definitionKind = .headerLike
    | .namedModule => mock.definitionKind = .namedModule ∧ mock.definitionModuleName = domain.moduleName

/-- The registry and the implementation of a domain; the latter includes nothing. -/
def domainFiles (domain : MockOutputDomainPlan) : Except String (List MockGeneratedFile) := do
  let includes ← buildDefinitionIncludeBlock opts aliases (domainClasses std mocks domain)
  return [{ path := domain.registryPath, includes }, { path := domain.implPath, includes := [] }]

def renderGentestMocks (domains : List MockOutputDomainPlan) : Except String MockOutputs := do
  let files ← domains.mapM (domainFiles std opts aliases mocks)
  withDispatchers domains files.flatten

end

-- ---------------------------------------------------------------------------
-- Other backends
-- ---------------------------------------------------------------------------

inductive MockBackend
  | gentest
  | gMock
  | trompeloeil
  deriving DecidableEq

def MockBackend.name : MockBackend → String
  | .gentest => "gentest"
  | .gMock => "gmock"
  | .trompeloeil => "trompeloeil"

def unsupportedClassReason (vol : Volume) (backend : MockBackend) (cls : MockInfo) : Option String :=
  if cls.isTemplateSpecialization ∨ '<' ∈ cls.qualifiedName.toList then
    some (backend.name ++ " mock backend does not support template-specialized target types: " ++ cls.qualifiedName)
  else if cls.enclosingRecordScope ≠ "" then
    some (backend.name ++ " mock backend does not support nested target types: " ++ cls.qualifiedName ++
      " is nested in " ++ cls.enclosingRecordScope)
  else if cls.useFiles.any fun file =>
      cls.definitionFile ≠ "" ∧ file ≠ "" ∧
        normalizeAbsoluteLexical vol cls.definitionFile = normalizeAbsoluteLexical vol file then
    some (backend.name ++ " third-party mock targets must be declared in a header separate from the mocked target " ++
      "definition: " ++ cls.qualifiedName)
  else none

def overloadSignatureKey (method : MockMethodInfo) (arity : Nat) :
    String × MockMethodCvQualifier × MockMethodRefQualifier × List String :=
  (method.methodName, method.qualifiers.cv, method.qualifiers.ref, (method.parameters.take arity).map (·.type))

/-- Where the default arguments begin that go on to the end. -/
def firstTrailingDefaultArg (method : MockMethodInfo) : Nat :=
  let first := method.parameters.findIdx (·.defaultArg ≠ "")
  if (method.parameters.drop first).all (·.defaultArg ≠ "") then first else method.parameters.length

/-- The overloads that are generated for default arguments, by method. -/
def generatedOverloads (cls : MockInfo) : List (MockMethodInfo × Nat) :=
  cls.methods.flatMap fun method =>
    ((List.range method.parameters.length).filter (firstTrailingDefaultArg method ≤ ·)).map fun arity => (method, arity)

def firstCollision (cls : MockInfo) : List (MockMethodInfo × Nat) → List (MockMethodInfo × Nat) → Option MockMethodInfo
  | _, [] => none
  | generated, (method, arity) :: rest =>
    let key := overloadSignatureKey method arity
    if key ∈ cls.methods.map (fun method => overloadSignatureKey method method.parameters.length) ∨
        key ∈ generated.map (fun overload => overloadSignatureKey overload.1 overload.2) then
      some method
    else firstCollision cls ((method, arity) :: generated) rest

def defaultOverloadCollisionReason (backend : MockBackend) (cls : MockInfo) : Option String :=
  (firstCollision cls [] (generatedOverloads cls)).map fun method =>
    backend.name ++ " mock backend cannot preserve default arguments: default-argument overload for " ++
      method.qualifiedName ++ " would collide with another generated overload"

def unsupportedReason (backend : MockBackend) (cls : MockInfo) (method : MockMethodInfo) : Option String :=
  let refused := fun what : String =>
    some (backend.name ++ " mock backend does not support " ++ what ++ ": " ++ cls.qualifiedName ++ "::" ++
      method.methodName)
  if method.templatePrefix ≠ "" then refused "member function templates"
  else if method.isStatic then refused "static methods"
  else if method.isFinal then refused "final methods"
  else if method.qualifiers.cv = .volatile ∨ method.qualifiers.cv = .constVolatile then
    refused "volatile-qualified methods"
  else if method.isVariadic then refused "C-style variadic methods"
  else if method.isOverloadedOperator ∨ method.isConversionOperator ∨
      "operator ".toList <+: method.methodName.toList then
    refused "operator mocks"
  else if backend = .trompeloeil ∧ method.qualifiers.ref ≠ .none then refused "ref-qualified methods"
  else none

def refusal (vol : Volume) (backend : MockBackend) (cls : MockInfo) : Option String :=
  if cls.definitionKind ≠ .headerLike then
    some (backend.name ++ " mock backend only supports header/textual mock targets; '" ++ cls.qualifiedName ++
      "' is owned by named module '" ++ cls.definitionModuleName ++ "'")
  else
    (unsupportedClassReason vol backend cls).or ((defaultOverloadCollisionReason backend cls).or
      (cls.methods.findSome? (unsupportedReason backend cls)))

section

variable (vol : Volume) (disk : Disk) (std : UnstableSort) (opts : CollectorOptions) (aliases : List SourcePathAlias)
  (mocks : List MockInfo)

def renderThirdPartyMocks (backend : MockBackend) (domains : List MockOutputDomainPlan) : Except String MockOutputs := do
  refuse (mocks.findSome? (refusal vol backend))
  match domains.find? (·.kind = .header) with
  | none => .error "mock renderer: internal error: missing header mock domain"
  | some domain =>
    let includes ← buildDefinitionIncludeBlock opts aliases (byQualifiedName std mocks)
    withDispatchers domains
      ([{ path := domain.registryPath, includes }, { path := domain.implPath, includes := [] }] ++
        (domains.filter (·.kind = .namedModule)).flatMap fun domain =>
          [{ path := domain.registryPath, includes := [] }, { path := domain.implPath, includes := [] }])

def renderMocks (backend : MockBackend) : Except String MockOutputs :=
  let domains := buildMockOutputDomains disk opts
  match backend with
  | .gentest => renderGentestMocks std opts aliases mocks domains
  | _ => renderThirdPartyMocks vol std opts aliases mocks backend domains

end

end Gentest.Codegen.MockIncludes
