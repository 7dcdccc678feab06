import Mathlib.Logic.Function.Basic
import Mathlib.Data.List.Nodup

/-!
# Precompiling named modules

Before the sources are parsed, each named module they import is precompiled,
after the modules it imports. Modules of the project are found by name; others
are looked up from the context of the importing source. Four closures call each
other and share the build states; here each is a function of the four, and the
recursion is unrolled as often as the fuel says.
-/

namespace Gentest.Codegen

-- ---------------------------------------------------------------------------
-- The import graph
-- ---------------------------------------------------------------------------

inductive ModuleBuildState
  | notStarted
  | building
  | built
  | failed
  deriving DecidableEq, Repr

/-- What a build state is kept under: the index of a module of the project, or
the name of an external one with the owner of the context it is imported from. -/
inductive ModuleKey
  | named (idx : Nat)
  | external (name owner : String)
  deriving DecidableEq, Repr

structure NamedModuleSource where
  moduleName : String
  /-- The owner of its context too. -/
  sourceKey : String
  importedModules : List String
  pcmPath : String
  deriving DecidableEq, Repr

structure ExternalModuleSource where
  importedModules : List String
  /-- The owner of its own context. -/
  ownerKey : String
  pcmPath : String
  deriving DecidableEq, Repr

/-- What a lookup of an external module finds. A failed scan is remembered. -/
inductive ExternalLookup
  | found (source : ExternalModuleSource)
  | missing
  | hardFailure
  deriving DecidableEq, Repr

structure ModuleGraph where
  sources : List NamedModuleSource
  distinct : (sources.map NamedModuleSource.moduleName).Nodup
  /-- By the name and the owner of the context; results are cached under both. -/
  resolveExternal : String → String → ExternalLookup
  /-- The module arguments a source has already, by its key. -/
  existingArgs : String → List String

def ModuleGraph.indexByName (g : ModuleGraph) (name : String) : Option Nat :=
  g.sources.findIdx? fun source => source.moduleName = name

-- ---------------------------------------------------------------------------
-- State
-- ---------------------------------------------------------------------------

/-- One run of a precompile command, with the module arguments it was given
before they are normalised. -/
structure Precompile where
  key : ModuleKey
  args : List String
  ok : Bool
  deriving DecidableEq, Repr

structure BuildState where
  states : ModuleKey → ModuleBuildState := fun _ => .notStarted
  hardFailure : Bool := false
  executed : List Precompile := []

def BuildState.set (σ : BuildState) (key : ModuleKey) (state : ModuleBuildState) : BuildState :=
  { σ with states := Function.update σ.states key state }

/-- What the import closures change: the build, the arguments and, for one root,
the names visited. -/
structure Work where
  build : BuildState
  args : List String
  visited : List String := []

abbrev Outcome (σ : Type) := Option (Bool × σ)

abbrev Execute := List Precompile → ModuleKey → List String → Bool

def moduleFileArg (name path : String) : String := s!"-fmodule-file={name}={path}"

structure Closures where
  buildNamedModulePcm : Nat → BuildState → Outcome BuildState
  buildExternalNamedModulePcm : String → String → BuildState → Outcome BuildState
  appendModuleArgForImport : String → String → Work → Outcome Work
  appendTransitiveModuleArgsForImport : String → String → Work → Outcome Work

-- ---------------------------------------------------------------------------
-- The closures
-- ---------------------------------------------------------------------------

section

variable (g : ModuleGraph) (execute : Execute)

/-- `execute_module_precompile` and the state after it. -/
def executeModulePrecompile (key : ModuleKey) (args : List String) (σ : BuildState) :
    Bool × BuildState :=
  let ok := execute σ.executed key args
  (ok, { σ.set key (if ok then .built else .failed) with
    executed := σ.executed ++ [⟨key, args, ok⟩] })

def resolveExternalNamedModuleSource (name owner : String) (σ : BuildState) :
    Option ExternalModuleSource × BuildState :=
  match g.resolveExternal name owner with
  | .found source => (some source, σ)
  | .missing => (none, σ)
  | .hardFailure => (none, { σ with hardFailure := true })

def forImports (step : String → Work → Outcome Work) : List String → Work → Outcome Work
  | [], w => some (true, w)
  | name :: names, w =>
    match step name w with
    | none => none
    | some (false, w) => some (false, w)
    | some (true, w) => forImports step names w

def finishModule (key : ModuleKey) : Outcome Work → Outcome BuildState
  | none => none
  | some (false, w) => some (false, w.build.set key .failed)
  | some (true, w) => some (executeModulePrecompile execute key w.args w.build)

def buildNamedModulePcm (call : Closures) (idx : Nat) (σ : BuildState) : Outcome BuildState :=
  match g.sources[idx]? with
  | none => some (false, σ)
  | some source =>
    match σ.states (.named idx) with
    | .built => some (true, σ)
    | .failed => some (false, σ)
    -- A cycle.
    | .building => some (false, σ.set (.named idx) .failed)
    | .notStarted =>
      finishModule execute (.named idx) <|
        forImports (call.appendTransitiveModuleArgsForImport · source.sourceKey) source.importedModules
          { build := σ.set (.named idx) .building, args := g.existingArgs source.sourceKey }

def buildExternalNamedModulePcm (call : Closures) (name owner : String) (σ : BuildState) :
    Outcome BuildState :=
  match σ.states (.external name owner) with
  | .built => some (true, σ)
  | .failed => some (false, σ)
  | .building => some (false, σ.set (.external name owner) .failed)
  | .notStarted =>
    match resolveExternalNamedModuleSource g name owner σ with
    | (none, σ) =>
      if σ.hardFailure then some (false, σ.set (.external name owner) .failed) else some (true, σ)
    | (some source, σ) =>
      finishModule execute (.external name owner) <|
        forImports (call.appendModuleArgForImport · source.ownerKey) source.importedModules
          { build := σ.set (.external name owner) .building, args := [] }

def addModuleArg (name path : String) (w : Work) : Outcome BuildState → Outcome Work
  | none => none
  | some (false, σ) => some (false, { w with build := σ })
  | some (true, σ) => some (true, { w with build := σ, args := w.args ++ [moduleFileArg name path] })

def appendModuleArgForImport (call : Closures) (name owner : String) (w : Work) : Outcome Work :=
  match g.indexByName name with
  | some idx =>
    addModuleArg name ((g.sources[idx]?.map NamedModuleSource.pcmPath).getD "") w
      (call.buildNamedModulePcm idx w.build)
  | none =>
    match resolveExternalNamedModuleSource g name owner w.build with
    | (none, σ) => some (!σ.hardFailure, { w with build := σ })
    | (some source, σ) =>
      addModuleArg name source.pcmPath w (call.buildExternalNamedModulePcm name owner σ)

def appendNestedImports (call : Closures) (name owner : String) (w : Work) : Outcome Work :=
  match g.indexByName name with
  | some idx =>
    match g.sources[idx]? with
    | none => some (true, w)
    | some source =>
      forImports (call.appendTransitiveModuleArgsForImport · source.sourceKey) source.importedModules
        { w with args := w.args ++ g.existingArgs source.sourceKey }
  | none =>
    match resolveExternalNamedModuleSource g name owner w.build with
    | (none, σ) => some (!σ.hardFailure, { w with build := σ })
    | (some source, σ) =>
      forImports (call.appendTransitiveModuleArgsForImport · source.ownerKey) source.importedModules
        { w with build := σ }

def appendTransitiveModuleArgsForImport (call : Closures) (name owner : String) (w : Work) :
    Outcome Work :=
  if name ∈ w.visited then some (true, w)
  else
    match call.appendModuleArgForImport name owner { w with visited := name :: w.visited } with
    | none => none
    | some (false, w) => some (false, w)
    | some (true, w) => appendNestedImports g call name owner w

def closures : Nat → Closures
  | 0 => ⟨fun _ _ => none, fun _ _ _ => none, fun _ _ _ => none, fun _ _ _ => none⟩
  | fuel + 1 =>
    { buildNamedModulePcm := buildNamedModulePcm g execute (closures fuel)
      buildExternalNamedModulePcm := buildExternalNamedModulePcm g execute (closures fuel)
      appendModuleArgForImport := appendModuleArgForImport g (closures fuel)
      appendTransitiveModuleArgsForImport := appendTransitiveModuleArgsForImport g (closures fuel) }

-- ---------------------------------------------------------------------------
-- The run
-- ---------------------------------------------------------------------------

structure ImportingSource where
  sourceKey : String
  importedModules : List String
  deriving DecidableEq, Repr

def buildRequired (call : Closures) : List Nat → BuildState → Outcome BuildState
  | [], σ => some (true, σ)
  | idx :: rest, σ =>
    match call.buildNamedModulePcm idx σ with
    | none => none
    | some (false, σ) => some (false, σ)
    | some (true, σ) => buildRequired call rest σ

/-- Then the imports of each source, with what was visited starting afresh. -/
def buildSources (call : Closures) : List ImportingSource → BuildState → Outcome BuildState
  | [], σ => some (true, σ)
  | source :: rest, σ =>
    match forImports (call.appendTransitiveModuleArgsForImport · source.sourceKey)
        source.importedModules { build := σ, args := g.existingArgs source.sourceKey } with
    | none => none
    | some (false, w) => some (false, w.build)
    | some (true, w) => buildSources call rest w.build

def precompileModules (fuel : Nat) (required : List Nat) (sources : List ImportingSource) :
    Outcome BuildState :=
  match buildRequired (closures g execute fuel) required {} with
  | none => none
  | some (false, σ) => some (false, σ)
  | some (true, σ) => buildSources g (closures g execute fuel) sources σ

end

end Gentest.Codegen
