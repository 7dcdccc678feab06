import Gentest.Codegen.AttributeText
import Gentest.Codegen.Outputs
import Gentest.Lib.JsonLayout

/-!
# The artifact manifest

`write_artifact_manifest` writes down, as JSON put together by hand, what each
source is registered by. A later build step, `validate_artifact_manifest`, reads
the text back and compares it with what the build files expect.
-/

namespace Gentest.Codegen

-- ---------------------------------------------------------------------------
-- Options
-- ---------------------------------------------------------------------------

structure ManifestOptions extends CollectorOptions where
  compileContextIds : List String := []
  scanSlotKinds : List String := []

/-- `std::filesystem::path::generic_string`: the text of a path with `/` as its
separator, which may leave out a separator that says nothing. -/
structure GenericPaths where
  genericString : String → String
  chars : ∀ path, ∀ c ∈ (genericString path).toList, c ∈ path.toList

/-- `path::parent_path`: what stands before the file name, without the
separators in between; the root is its own parent. -/
def parentPath (path : String) : String :=
  let dir := path.toList.reverse.dropWhile (· ≠ '/')
  let parent := dir.dropWhile (· = '/')
  if parent.isEmpty then String.ofList (dir.take 1) else String.ofList parent.reverse

namespace ArtifactManifest

def schema : String := "gentest.artifact_manifest.v1"

variable (paths : GenericPaths) (opts : ManifestOptions)

def compileContextIdFor (idx : Nat) : String :=
  if opts.compileContextIds.getD idx "" ≠ "" then opts.compileContextIds.getD idx ""
  else opts.source idx

def moduleName (idx : Nat) : String := (opts.moduleInterfaceNamesBySource.lookup (opts.source idx)).getD ""

def headerOutput (idx : Nat) : String := resolveTuHeaderOutput opts.toCollectorOptions idx

def includeDir (idx : Nat) : String :=
  let parent := parentPath (headerOutput opts idx)
  if parent = "" then "." else paths.genericString parent

def depfileText : String := (opts.depfilePath.map paths.genericString).getD ""

def scanSlotKind (idx : Nat) : String := opts.scanSlotKinds.getD idx "authored-tu"

-- ---------------------------------------------------------------------------
-- The writer
-- ---------------------------------------------------------------------------

/-- What stands behind the name of a field. -/
inductive FieldText
  | text (s : String)
  | single (s : String)
  | flag (b : Bool)
  | null
  deriving DecidableEq, Repr

def quoted (s : String) : List Char := '"' :: (escapeString s.toList ++ ['"'])

def FieldText.write : FieldText → List Char
  | .text s => quoted s
  | .single s => '[' :: (quoted s ++ [']'])
  | .flag true => "true".toList
  | .flag false => "false".toList
  | .null => "null".toList

abbrev Fields := List (String × FieldText)

def fieldLine (field : String × FieldText) : List Char :=
  "      \"".toList ++ field.1.toList ++ "\": ".toList ++ field.2.write

def entryText (fields : Fields) : List Char :=
  "    \x7b\n".toList ++ Json.commaLines (fields.map fieldLine) ++ "    \x7d".toList

/-- Every entry but the last has a comma behind it. -/
def manifestText (sources artifacts : List Fields) : List Char :=
  "\x7b\n  \"schema\": \"".toList ++ schema.toList ++ "\",\n  \"sources\": [\n".toList ++
    Json.commaLines (sources.map entryText) ++ "  ],\n  \"artifacts\": [\n".toList ++
    Json.commaLines (artifacts.map entryText) ++ "  ]\n\x7d\n".toList

def moduleSource (idx : Nat) : Fields :=
  [("source", .text (paths.genericString (opts.source idx))),
    ("kind", .text "module-primary-interface"),
    ("module", .text (moduleName opts idx)),
    ("partition", .null),
    ("compile_context_id", .text (compileContextIdFor opts idx)),
    ("registration_output", .text (paths.genericString (opts.moduleRegistrationOutputs.getD idx "")))]

def moduleArtifact (idx : Nat) : Fields :=
  [("path", .text (paths.genericString (opts.moduleRegistrationOutputs.getD idx ""))),
    ("role", .text "registration"),
    ("compile_as", .text "cxx-module-importer-registration"),
    ("module", .text (moduleName opts idx)),
    ("imports", .single (moduleName opts idx)),
    ("owner_source", .text (paths.genericString (opts.source idx))),
    ("target_attachment", .text "private-generated-source"),
    ("compile_context_id", .text (compileContextIdFor opts idx)),
    ("requires_module_scan", .flag true),
    ("generated_include_dirs", .single (includeDir paths opts idx)),
    ("generated_headers", .single (paths.genericString (headerOutput opts idx))),
    ("depfile", .text (depfileText paths opts))]

def textualSource (idx : Nat) : Fields :=
  [("source", .text (paths.genericString (opts.source idx))),
    ("kind", .text "cxx-header-declaration-registration"),
    ("scan_source", .text (paths.genericString (opts.source idx))),
    ("scan_slot_kind", .text (scanSlotKind opts idx)),
    ("compile_context_id", .text (compileContextIdFor opts idx)),
    ("compile_context_fingerprint", .text (opts.compileContextFingerprints.getD idx "")),
    ("registration_output", .text (paths.genericString (opts.textualRegistrationOutputs.getD idx "")))]

def textualArtifact (idx : Nat) : Fields :=
  [("path", .text (paths.genericString (opts.textualRegistrationOutputs.getD idx ""))),
    ("role", .text "registration"),
    ("compile_as", .text "cxx-header-declaration-registration"),
    ("owner_source", .text (paths.genericString (opts.source idx))),
    ("target_attachment", .text "append-generated-source"),
    ("compile_context_id", .text (compileContextIdFor opts idx)),
    ("compile_context_fingerprint", .text (opts.compileContextFingerprints.getD idx "")),
    ("requires_module_scan", .flag false),
    ("includes_authored_source", .flag false),
    ("replaces_authored_source", .flag false),
    ("depfile", .text (depfileText paths opts))]

/-- The text handed to `write_file_atomic_if_changed`, if one is written. -/
def writeModuleRegistrationManifest : Option (List Char) :=
  if opts.artifactManifestPath = "" then none
  else if opts.moduleRegistrationOutputs = [] then none
  else
    let idxs := List.range opts.sources.length
    some (manifestText (idxs.map (moduleSource paths opts)) (idxs.map (moduleArtifact paths opts)))

def writeTextualHeaderRegistrationManifest : Except String (Option (List Char)) :=
  if opts.artifactManifestPath = "" ∨ opts.textualRegistrationOutputs = [] then .ok none
  else if opts.compileContextFingerprints.length ≠ opts.sources.length then
    .error ("gentest_codegen: additive artifact manifest expected " ++ toString opts.sources.length ++
      " compile-context fingerprints, got " ++ toString opts.compileContextFingerprints.length)
  else
    let idxs := List.range opts.sources.length
    .ok (some (manifestText (idxs.map (textualSource paths opts)) (idxs.map (textualArtifact paths opts))))

/-- The texts written, one after the other, to the path of the manifest, and what
went wrong after them. -/
def writeArtifactManifest : List (List Char) × Option String :=
  let written := (writeModuleRegistrationManifest paths opts).toList
  match writeTextualHeaderRegistrationManifest paths opts with
  | .ok text => (written ++ text.toList, none)
  | .error error => (written, some error)

-- ---------------------------------------------------------------------------
-- Fields of the parsed text
-- ---------------------------------------------------------------------------

abbrev Object := List (List Char × Json)

/-- A field that is given twice has the value given last. -/
def get (object : Object) (field : String) : Option Json := (object.reverse.find? (·.1 = field.toList)).map Prod.snd

def jsonStringField (object : Object) (field location : String) : Except String String :=
  match get object field with
  | none => .error s!"gentest artifact manifest {location} is missing required string field '{field}'"
  | some (.str s) => .ok (String.ofList s)
  | some _ => .error s!"gentest artifact manifest {location} field '{field}' must be a string"

def jsonBoolField (object : Object) (field location : String) : Except String Bool :=
  match get object field with
  | none => .error s!"gentest artifact manifest {location} is missing required boolean field '{field}'"
  | some (.bool b) => .ok b
  | some _ => .error s!"gentest artifact manifest {location} field '{field}' must be a boolean"

def jsonNullField (object : Object) (field location : String) : Except String Unit :=
  match get object field with
  | none => .error s!"gentest artifact manifest {location} is missing required null field '{field}'"
  | some .null => .ok ()
  | some _ => .error s!"gentest artifact manifest {location} field '{field}' must be null"

def jsonSingleStringArrayField (object : Object) (field location : String) : Except String String :=
  match get object field with
  | some (.arr [.str s]) => .ok (String.ofList s)
  | some (.arr [_]) => .error s!"gentest artifact manifest {location}.{field}[0] must be a string"
  | some (.arr elements) =>
    .error (s!"gentest artifact manifest {location}.{field} has " ++ toString elements.length ++ " entries, expected 1")
  | _ => .error s!"gentest artifact manifest {location} field '{field}' must be an array"

def expectEqual (location expected actual : String) : Except String Unit :=
  if actual = expected then .ok ()
  else .error s!"gentest artifact manifest {location} mismatch: expected '{expected}', got '{actual}'"

/-- `json_string_field`, and `expect_equal` on what it found. -/
def expectStringField (object : Object) (field location expected : String) : Except String Unit := do
  let actual ← jsonStringField object field location
  expectEqual s!"{location}.{field}" expected actual

def expectBoolField (object : Object) (field location : String) (expected : Bool) : Except String Unit := do
  let actual ← jsonBoolField object field location
  expectEqual s!"{location}.{field}" (if expected then "true" else "false") (if actual then "true" else "false")

def expectSingleField (object : Object) (field location expected : String) : Except String Unit := do
  let actual ← jsonSingleStringArrayField object field location
  expectEqual s!"{location}.{field}[0]" expected actual

-- ---------------------------------------------------------------------------
-- The validator
-- ---------------------------------------------------------------------------

structure ArtifactManifestValidationOptions where
  manifest : String := ""
  stamp : String := ""
  compilationDatabase : String := ""
  expectedSources : List String := []
  expectedSourceKinds : List String := []
  expectedRegistrationOutputs : List String := []
  expectedHeaders : List String := []
  expectedCompileContextIds : List String := []
  expectedScanSlotKinds : List String := []
  expectedSourceRegistrationOutputs : List String := []
  expectedModules : List String := []
  expectedSourceScanIncludeDirs : String → Option (List String) := fun _ => none
  expectedSourceScanArgs : String → Option (List String) := fun _ => none
  expectedIncludeDir : String := ""
  expectedDepfile : String := ""
  expectedTargetAttachment : String := ""
  expectedArtifactRole : String := ""
  expectedCompileAs : String := ""
  expectedRequiresModuleScan : Option Bool := none
  expectedIncludesAuthoredSource : Option Bool := none
  expectedReplacesAuthoredSource : Option Bool := none

structure ArtifactManifestSourceScanContext where
  includeDirs : List String
  commandLine : List String

/-- What the validator asks the system and the libraries for. -/
structure ValidationHost where
  getFile : String → Except String (List Char)
  /-- `llvm::json::parse`. -/
  parse : List Char → Except String Json
  /-- The contexts of the sources, by the compilation database that was given. -/
  databaseScanContexts : ArtifactManifestValidationOptions →
    Except String (String → Option ArtifactManifestSourceScanContext)
  /-- `named_module_name_from_source_file`, with include directories and
  arguments. -/
  namedModuleNameFromSourceFile : String → List String → List String → Option String
  /-- The stamp that is given is touched, or why it cannot be. -/
  touchStamp : String → Except String Unit

variable (host : ValidationHost) (options : ArtifactManifestValidationOptions)

/-- A check that only some inputs are put to. -/
def checkWhen (c : Prop) [Decidable c] (check : Except String Unit) : Except String Unit := if c then check else .ok ()

def validateExpectedListCount (name : String) (values : List String) (expectedCount : Nat) : Except String Unit :=
  if values.length = expectedCount then .ok ()
  else .error (name ++ " has " ++ toString values.length ++ " entries, expected " ++ toString expectedCount)

def isSha256Fingerprint (value : String) : Bool :=
  value.utf8ByteSize == "sha256:".length + 64 && "sha256:".toList.isPrefixOf value.toList &&
    (value.toList.drop "sha256:".length).all fun c => (Json.hexDigit? c).isSome

def additiveHeaderRegistration : Bool := options.expectedCompileAs = "cxx-header-declaration-registration"

def validateFingerprint (source : Object) (location : String) : Except String Unit := do
  let fingerprint ← jsonStringField source "compile_context_fingerprint" location
  if isSha256Fingerprint fingerprint then .ok ()
  else .error s!"gentest artifact manifest {location}.compile_context_fingerprint must be a sha256 fingerprint"

def validateScanSlot (source : Object) (location : String) (idx : Nat) : Except String Unit := do
  expectStringField source "scan_source" location (options.expectedSources.getD idx "")
  expectStringField source "scan_slot_kind" location (options.expectedScanSlotKinds.getD idx "")
  validateFingerprint source location

def validateSourceManifestEntry (source : Object) (idx : Nat) : Except String Unit := do
  let location := "sources[" ++ toString idx ++ "]"
  expectStringField source "source" location (options.expectedSources.getD idx "")
  expectStringField source "kind" location (options.expectedSourceKinds.getD idx "")
  expectStringField source "compile_context_id" location (options.expectedCompileContextIds.getD idx "")
  checkWhen (additiveHeaderRegistration options) (validateScanSlot options source location idx)
  checkWhen (options.expectedSourceRegistrationOutputs ≠ [])
    (expectStringField source "registration_output" location (options.expectedSourceRegistrationOutputs.getD idx ""))

def validateAdditiveManifestEntryPair (source artifact : Object) (idx : Nat) : Except String Unit :=
  checkWhen (additiveHeaderRegistration options) do
    let sourceFingerprint ← jsonStringField source "compile_context_fingerprint" ("sources[" ++ toString idx ++ "]")
    expectStringField artifact "compile_context_fingerprint" ("artifacts[" ++ toString idx ++ "]") sourceFingerprint

def expectGiven (artifact : Object) (field location : String) : Option Bool → Except String Unit
  | none => .ok ()
  | some expected => expectBoolField artifact field location expected

def validateModuleScan (artifact : Object) (location : String) : Except String Unit :=
  match options.expectedRequiresModuleScan with
  | none => .error "--expected-requires-module-scan is required"
  | some expected => expectBoolField artifact "requires_module_scan" location expected

def validateHeader (artifact : Object) (location : String) (idx : Nat) : Except String Unit := do
  expectSingleField artifact "generated_headers" location (options.expectedHeaders.getD idx "")
  expectSingleField artifact "generated_include_dirs" location options.expectedIncludeDir

def validateArtifactManifestEntry (artifact : Object) (idx : Nat) : Except String Unit := do
  let location := "artifacts[" ++ toString idx ++ "]"
  expectStringField artifact "path" location (options.expectedRegistrationOutputs.getD idx "")
  expectStringField artifact "role" location options.expectedArtifactRole
  expectStringField artifact "compile_as" location options.expectedCompileAs
  expectStringField artifact "owner_source" location (options.expectedSources.getD idx "")
  expectStringField artifact "target_attachment" location options.expectedTargetAttachment
  expectStringField artifact "compile_context_id" location (options.expectedCompileContextIds.getD idx "")
  validateModuleScan options artifact location
  expectGiven artifact "includes_authored_source" location options.expectedIncludesAuthoredSource
  expectGiven artifact "replaces_authored_source" location options.expectedReplacesAuthoredSource
  checkWhen (¬additiveHeaderRegistration options) (validateHeader options artifact location idx)
  expectStringField artifact "depfile" location options.expectedDepfile

/-- `build_artifact_manifest_source_scan_contexts`. -/
def sourceScanContexts : Except String (String → Option ArtifactManifestSourceScanContext) :=
  if options.compilationDatabase = "" then .ok fun _ => none else host.databaseScanContexts options

def discoveredModule (contexts : String → Option ArtifactManifestSourceScanContext) (source : String) : Option String :=
  match contexts source with
  | some context => host.namedModuleNameFromSourceFile source context.includeDirs context.commandLine
  | none =>
    host.namedModuleNameFromSourceFile source ((options.expectedSourceScanIncludeDirs source).getD [])
      ((options.expectedSourceScanArgs source).getD [])

def validateImporter (artifact : Object) (location expectedModule : String) : Except String Unit := do
  expectStringField artifact "module" location expectedModule
  checkWhen (options.expectedCompileAs = "cxx-module-importer-registration")
    (expectSingleField artifact "imports" location expectedModule)

def validateNamedModule (contexts : String → Option ArtifactManifestSourceScanContext) (source artifact : Object)
    (idx : Nat) : Except String Unit := do
  let sourceLocation := "sources[" ++ toString idx ++ "]"
  let expectedSource := options.expectedSources.getD idx ""
  let sourceModule ← jsonStringField source "module" sourceLocation
  checkWhen (sourceModule = "") (.error s!"gentest artifact manifest {sourceLocation}.module must not be empty")
  match discoveredModule host options contexts expectedSource with
  | none =>
    .error s!"gentest artifact manifest {sourceLocation}.module could not be checked because source '{expectedSource}' has no named module declaration"
  | some discovered =>
    expectEqual s!"{sourceLocation}.module" discovered sourceModule
    jsonNullField source "partition" sourceLocation
    let expectedModule := if options.expectedModules = [] then discovered else options.expectedModules.getD idx ""
    checkWhen (options.expectedModules ≠ [])
      (expectEqual s!"{sourceLocation}.expected_module" expectedModule discovered)
    validateImporter options artifact ("artifacts[" ++ toString idx ++ "]") expectedModule

def validateModuleManifestEntryPair (contexts : String → Option ArtifactManifestSourceScanContext)
    (source artifact : Object) (idx : Nat) : Except String Unit :=
  checkWhen (options.expectedSourceKinds.getD idx "" ≠ "cxx-header-declaration-registration")
    (validateNamedModule host options contexts source artifact idx)

def asObject (name : String) (idx : Nat) : Json → Except String Object
  | .obj members => .ok members
  | _ => .error ("gentest artifact manifest " ++ name ++ "[" ++ toString idx ++ "] must be an object")

def validateEntry (contexts : String → Option ArtifactManifestSourceScanContext) (sources artifacts : List Json)
    (idx : Nat) : Except String Unit := do
  let source ← asObject "sources" idx (sources.getD idx .null)
  validateSourceManifestEntry options source idx
  let artifact ← asObject "artifacts" idx (artifacts.getD idx .null)
  validateArtifactManifestEntry options artifact idx
  validateAdditiveManifestEntryPair options source artifact idx
  validateModuleManifestEntryPair host options contexts source artifact idx

def touchValidationStamp : Except String Unit := if options.stamp = "" then .ok () else host.touchStamp options.stamp

/-- The lists of expectations have one entry for each source. -/
def validateExpectedCounts : Except String Unit := do
  let expectedCount := options.expectedSources.length
  validateExpectedListCount "--expected-source-kind" options.expectedSourceKinds expectedCount
  validateExpectedListCount "--expected-registration-output" options.expectedRegistrationOutputs expectedCount
  validateExpectedListCount "--expected-compile-context-id" options.expectedCompileContextIds expectedCount
  checkWhen (¬additiveHeaderRegistration options)
    (validateExpectedListCount "--expected-header" options.expectedHeaders expectedCount)
  checkWhen (additiveHeaderRegistration options)
    (validateExpectedListCount "--expected-scan-slot-kind" options.expectedScanSlotKinds expectedCount)
  checkWhen (options.expectedSourceRegistrationOutputs ≠ [])
    (validateExpectedListCount "--expected-source-registration-output" options.expectedSourceRegistrationOutputs
      expectedCount)
  checkWhen (options.expectedModules ≠ [])
    (validateExpectedListCount "--expected-module" options.expectedModules expectedCount)

/-- The text of the file as an object. -/
def readManifest : Except String Object := do
  let text ← (host.getFile options.manifest).mapError fun message =>
    s!"gentest artifact manifest '{options.manifest}' does not exist or cannot be read: {message}"
  let json ← (host.parse text).mapError fun message =>
    s!"failed to parse gentest artifact manifest '{options.manifest}': {message}"
  match json with
  | .obj members => .ok members
  | _ => .error s!"gentest artifact manifest '{options.manifest}' must be a JSON object"

def validateSchema (manifest : Object) : Except String Unit := do
  let found ← (jsonStringField manifest "schema" "<root>").mapError fun message =>
    s!"gentest artifact manifest '{options.manifest}' is missing or has invalid schema: {message}"
  if found = schema then .ok ()
  else .error s!"unsupported artifact manifest schema '{found}' in '{options.manifest}' (expected '{schema}')"

def entriesOf (manifest : Object) (field : String) : Except String (List Json) :=
  match get manifest field with
  | some (.arr entries) => .ok entries
  | _ => .error s!"gentest artifact manifest '{options.manifest}' is missing array field '{field}'"

def validateEntryCount (kind : String) (entries : List Json) : Except String Unit :=
  if entries.length = options.expectedSources.length then .ok ()
  else
    .error (s!"gentest artifact manifest '{options.manifest}' has " ++ toString entries.length ++ " " ++ kind ++
      " entries, expected " ++ toString options.expectedSources.length)

def validateArtifactManifest : Except String Unit := do
  validateExpectedCounts options
  let manifest ← readManifest host options
  validateSchema options manifest
  let sources ← entriesOf options manifest "sources"
  let artifacts ← entriesOf options manifest "artifacts"
  validateEntryCount options "source" sources
  validateEntryCount options "artifact" artifacts
  let contexts ← sourceScanContexts host options
  (List.range options.expectedSources.length).forM (validateEntry host options contexts sources artifacts)
  touchValidationStamp host options

end ArtifactManifest

end Gentest.Codegen
