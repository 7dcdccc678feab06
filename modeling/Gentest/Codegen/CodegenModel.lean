import Gentest.Runner.TestPlan

/-!
# What a scan discovers

The records that the collectors fill from the declarations of a translation
unit, and how the suite of a declaration follows from the namespaces around it.
Texts are looked at only where they are ASCII, so a `char` is a character here.
-/

namespace Gentest.Codegen

open Runner (FixtureLifetime)

-- ---------------------------------------------------------------------------
-- Records
-- ---------------------------------------------------------------------------

inductive FixtureScope
  | localScope
  | suite
  | global
  deriving DecidableEq, Repr

structure FreeFixtureUse where
  typeName : String
  /-- Empty means the type name. -/
  registryName : String := ""
  scope : FixtureScope := .localScope
  suiteName : String := ""
  deriving DecidableEq, Repr

structure FixtureDeclInfo where
  qualifiedName : String
  registrationTypeName : String := ""
  baseName : String := ""
  namespaceParts : List String := []
  suiteName : String := ""
  scope : FixtureScope := .localScope
  tuFilename : String := ""
  filename : String := ""
  line : Nat := 0
  declarationSiteKey : String := ""
  entityKey : String := ""
  semanticFingerprint : String := ""
  scanContext : String := ""
  registrationHeader : String := ""
  scanSlot : Nat := 0
  importerReachable : Bool := true
  deriving DecidableEq, Repr

structure TestCaseInfo where
  qualifiedName : String
  displayName : String := ""
  baseName : String := ""
  tuFilename : String := ""
  filename : String := ""
  suiteName : String := ""
  line : Nat := 0
  declarationSiteKey : String := ""
  entityKey : String := ""
  semanticFingerprint : String := ""
  scanContext : String := ""
  scanSlot : Nat := 0
  registrationHeaders : List String := []
  isBenchmark : Bool := false
  isJitter : Bool := false
  isBaseline : Bool := false
  itemsPerCall : Nat := 1
  isFunctionTemplate : Bool := false
  returnsAsync : Bool := false
  tags : List String := []
  requirements : List String := []
  shouldSkip : Bool := false
  skipReason : String := ""
  fixtureQualifiedName : String := ""
  fixtureLifetime : FixtureLifetime := .none
  callArguments : String := ""
  freeFixtureTypes : List String := []
  freeFixtureEntityKeys : List String := []
  freeFixtureEmitTypes : List String := []
  freeFixtureRequiredScopes : List (Option FixtureScope) := []
  freeFixtures : List FreeFixtureUse := []
  namespaceParts : List String := []
  owner : String := ""
  deriving DecidableEq, Repr

-- ---------------------------------------------------------------------------
-- Namespaces
-- ---------------------------------------------------------------------------

structure Namespace where
  name : Option String
  suite : Option String := none
  deriving DecidableEq, Repr

/-- The namespaces around a declaration, the innermost first. Other contexts
are passed over. -/
abbrev DeclContext := List Namespace

def findSuiteOverride (ctx : DeclContext) : Option String := ctx.findSome? Namespace.suite

def collectNamespaceParts (ctx : DeclContext) : List String := (ctx.filterMap Namespace.name).reverse

def deriveNamespacePath (ctx : DeclContext) : String := "/".intercalate (collectNamespaceParts ctx)

def suitePath (ctx : DeclContext) : String := (findSuiteOverride ctx).getD (deriveNamespacePath ctx)

/-- A fixture declaration as it is written: where, and the rest of its record. -/
structure FixtureSource where
  ctx : DeclContext
  info : FixtureDeclInfo
  named : info.qualifiedName ≠ ""

def FixtureSource.collect (f : FixtureSource) : FixtureDeclInfo :=
  { f.info with namespaceParts := collectNamespaceParts f.ctx, suiteName := suitePath f.ctx }

structure TestSource where
  ctx : DeclContext
  info : TestCaseInfo

def TestSource.collect (t : TestSource) : TestCaseInfo :=
  { t.info with namespaceParts := collectNamespaceParts t.ctx, suiteName := suitePath t.ctx }

-- ---------------------------------------------------------------------------
-- Text
-- ---------------------------------------------------------------------------

/-- `std::isspace` in the C locale. -/
def isSpace (c : Char) : Bool := c == ' ' || (9 ≤ c.toNat && c.toNat ≤ 13)

theorem isSpace_cases {ch : Char} (h : isSpace ch = true) :
    ch ∈ [' ', '\t', '\n', '\x0b', '\x0c', '\r'] := by
  simp only [isSpace, Bool.or_eq_true, beq_iff_eq, Bool.and_eq_true, decide_eq_true_eq] at h
  obtain rfl | ⟨hlow, hhigh⟩ := h
  · decide
  · have hcodes : ∀ code ∈ List.range' 9 5, Char.ofNat code ∈ [' ', '\t', '\n', '\x0b', '\x0c', '\r'] := by
      decide
    have hcode := hcodes ch.toNat (List.mem_range'_1.mpr ⟨hlow, Nat.lt_succ_of_le hhigh⟩)
    rwa [Char.ofNat_toNat] at hcode

def trimView (text : List Char) : List Char :=
  ((text.dropWhile isSpace).reverse.dropWhile isSpace).reverse

-- ---------------------------------------------------------------------------
-- Paths
-- ---------------------------------------------------------------------------

def fileName (path : String) : String := String.ofList (path.toList.reverse.takeWhile (· ≠ '/')).reverse

/-- `path::replace_extension` on a file name. -/
def replaceExtension (name extension : String) : String :=
  let afterDot := name.toList.reverse.takeWhile (· ≠ '.')
  if name = "." ∨ name = ".." ∨ name.length ≤ afterDot.length + 1 then name ++ extension
  else String.ofList (name.toList.take (name.length - (afterDot.length + 1))) ++ extension

/-- `operator/` with a file name on the right. -/
def joinPath (dir name : String) : String :=
  if dir = "" ∨ dir.toList.getLast? = some '/' then dir ++ name else dir ++ "/" ++ name

end Gentest.Codegen
