import Gentest.Codegen.FixtureResolution
import Gentest.Lib.Sorting
import Mathlib.Data.Prod.Lex
import Mathlib.Data.String.Basic

/-!
# Merging header declarations

With registration from headers every translation unit is a scan slot, and a
declaration is seen by each slot that includes its header.
`merge_header_declaration_occurrences` groups the occurrences by declaration
site and slot, then the sites by entity, and keeps one owner for each entity.
`enforce_unique_base_names` then rejects a name that is declared in two places.
-/

namespace Gentest.Codegen

open Sorting

section

variable (std : UnstableSort)

-- ---------------------------------------------------------------------------
-- Unique base names
-- ---------------------------------------------------------------------------

def TestCaseInfo.nameOrder (c : TestCaseInfo) : String ×ₗ String ×ₗ Nat ×ₗ String ×ₗ String :=
  toLex (c.baseName, toLex (c.filename, toLex (c.line, toLex (c.displayName, c.qualifiedName))))

def TestCaseInfo.location (c : TestCaseInfo) : String := s!"{c.filename}:{c.line}"

/-- The state of the scan over the names. -/
structure NameScan where
  firstLocation : List (String × String) := []
  reported : List String := []
  dropped : List Nat := []
  errors : List String := []
  deriving Repr

def NameScan.visit (scan : NameScan) (item : TestCaseInfo × Nat) : NameScan :=
  let c := item.1
  if c.baseName = "" then scan
  else
    match scan.firstLocation.lookup c.baseName with
    | none => { scan with firstLocation := (c.baseName, c.location) :: scan.firstLocation }
    | some first =>
      -- Template instantiations share their declaration.
      if first = c.location then scan
      else
        let reportKey := s!"{c.baseName}\n{c.location}"
        let message := s!"gentest_codegen: duplicate test name '{c.baseName}' at {c.location} (previously declared at {first})"
        if reportKey ∈ scan.reported then { scan with dropped := item.2 :: scan.dropped }
        else
          { scan with
            dropped := item.2 :: scan.dropped
            reported := reportKey :: scan.reported
            errors := scan.errors ++ [message] }

def scanNames (cases : List TestCaseInfo) : NameScan :=
  (std.sort (fun a b => a.1.nameOrder < b.1.nameOrder) cases.zipIdx).foldl NameScan.visit {}

/-- Whether the names are unique, and the cases that stay. -/
def enforceUniqueBaseNames (cases : List TestCaseInfo) : Bool × List TestCaseInfo :=
  let scan := scanNames std cases
  if scan.dropped.isEmpty then (true, cases)
  else (false, (cases.zipIdx.filter fun item => item.2 ∉ scan.dropped).map Prod.fst)

-- ---------------------------------------------------------------------------
-- Declaration sites
-- ---------------------------------------------------------------------------

/-- What one slot observed at a site, sorted; there is at least one. -/
structure Observed (α : Type) where
  first : α
  rest : List α
  deriving DecidableEq, Repr

def Observed.all {α : Type} (o : Observed α) : List α := o.first :: o.rest

/-- A declaration site with what each slot observed there, by slot. -/
structure Site (α : Type) where
  key : String
  first : Observed α
  rest : List (Observed α)
  deriving Repr

def Site.occurrences {α : Type} (s : Site α) : List (Observed α) := s.first :: s.rest

/-- What an occurrence is grouped and sorted by. -/
structure Grouping (α : Type) where
  site : α → String
  slot : α → Nat
  entity : α → String
  less : α → α → Bool

variable {α : Type}

def Site.entity (g : Grouping α) (s : Site α) : String := g.entity s.first.first

def observe (g : Grouping α) (items : List α) : Option (Observed α) :=
  match std.sort g.less items with
  | [] => none
  | first :: rest => some ⟨first, rest⟩

def siteOf (g : Grouping α) (key : String) (items : List α) : Option (Site α) :=
  match (byKey g.slot items).filterMap fun bySlot => observe std g bySlot.2 with
  | [] => none
  | first :: rest => some ⟨key, first, rest⟩

def declarationSites (g : Grouping α) (items : List α) : List (Site α) :=
  (byKey g.site items).filterMap fun bySite => siteOf std g bySite.1 bySite.2

def sitesByEntity (g : Grouping α) (items : List α) : List (String × List (Site α)) :=
  (byKey (Site.entity g) (declarationSites std g items)).map fun group =>
    (group.1, std.sort (fun a b => a.key < b.key) group.2)

def contextLabel (context : String) (slot : Nat) : String :=
  if context = "" then s!"scan slot {slot}" else context

-- ---------------------------------------------------------------------------
-- Fixtures
-- ---------------------------------------------------------------------------

def fixtureOwnerKey (item : FixtureDeclInfo) : Nat ×ₗ String ×ₗ Nat ×ₗ String ×ₗ String :=
  toLex (item.scanSlot, toLex (item.filename, toLex (item.line,
    toLex (item.tuFilename, item.declarationSiteKey))))

def fixtureGrouping : Grouping FixtureDeclInfo where
  site := FixtureDeclInfo.declarationSiteKey
  slot := FixtureDeclInfo.scanSlot
  entity := FixtureDeclInfo.entityKey
  less a b := fixtureOwnerKey a < fixtureOwnerKey b

def FixtureDeclInfo.place (fx : FixtureDeclInfo) : String :=
  s!"  {fx.filename}:{fx.line} [{contextLabel fx.scanContext fx.scanSlot}]"

/-- The slots that saw another fixture than the first at a site. Of what a slot
saw only the first is looked at. -/
def fixtureSiteErrors (s : Site FixtureDeclInfo) : List String :=
  s.rest.filterMap fun o =>
    if o.first.entityKey ≠ s.first.first.entityKey ∨
        o.first.semanticFingerprint ≠ s.first.first.semanticFingerprint then
      some s!"gentest_codegen: header fixture declaration differs between compile contexts:\n{s.first.first.place}\n{o.first.place}"
    else none

def fixtureOwner (sites : List (Site FixtureDeclInfo)) : Option FixtureDeclInfo :=
  least fixtureGrouping.less (sites.flatMap fun s => s.occurrences.map Observed.first)

def fixtureEntityErrors (sites : List (Site FixtureDeclInfo)) : List String :=
  match fixtureOwner sites with
  | none => []
  | some owner =>
    sites.filterMap fun s =>
      if s.first.first.semanticFingerprint ≠ owner.semanticFingerprint then
        some s!"gentest_codegen: annotated fixture redeclarations differ:\n{owner.place}\n{s.first.first.place}"
      else none

def mergedFixture (owner : FixtureDeclInfo) : FixtureDeclInfo :=
  { owner with registrationHeader := owner.filename }

def canonicalFixtures (fixtures : List FixtureDeclInfo) : List FixtureDeclInfo :=
  (sitesByEntity std fixtureGrouping fixtures).filterMap fun group =>
    (fixtureOwner group.2).map mergedFixture

-- ---------------------------------------------------------------------------
-- Cases
-- ---------------------------------------------------------------------------

def FixtureScope.toInt : FixtureScope → Nat
  | .localScope => 0
  | .suite => 1
  | .global => 2

def FreeFixtureUse.fingerprint (use : FreeFixtureUse) : String :=
  s!"|resolved-fixture:{use.typeName}:{use.registryName}:{use.scope.toInt}:{use.suiteName}"

def resolvedCaseFingerprint (item : TestCaseInfo) : String :=
  item.freeFixtures.foldl (fun fingerprint use => fingerprint ++ use.fingerprint)
    item.semanticFingerprint

def caseOrder (item : TestCaseInfo) : String ×ₗ String ×ₗ String ×ₗ String :=
  toLex (resolvedCaseFingerprint item, toLex (item.displayName,
    toLex (item.qualifiedName, item.callArguments)))

def caseGrouping : Grouping TestCaseInfo where
  site := TestCaseInfo.declarationSiteKey
  slot := TestCaseInfo.scanSlot
  entity := TestCaseInfo.entityKey
  less a b := caseOrder a < caseOrder b

def caseSemantics (items : List TestCaseInfo) : List String := items.map resolvedCaseFingerprint

def TestCaseInfo.place (c : TestCaseInfo) : String :=
  s!"  {c.filename}:{c.line} [{contextLabel c.scanContext c.scanSlot}]"

def differsMessage (first candidate : TestCaseInfo) : String :=
  s!"gentest_codegen: header declaration differs between compile contexts:\n{first.place}\n{candidate.place}"

def contextKey (item : TestCaseInfo) : String := s!"{item.qualifiedName}|{item.baseName}"

def inventoryFor (items : List TestCaseInfo) : List String :=
  unique (std.sort (fun a b => a < b) (caseSemantics items))

/-- The slots that observed another inventory of a name than the first. -/
def inventoryErrors (items : List TestCaseInfo) : List String :=
  match byKey TestCaseInfo.scanSlot items with
  | [] => []
  | first :: rest =>
    rest.filterMap fun other =>
      if inventoryFor std other.2 = inventoryFor std first.2 then none
      else
        match first.2.head?, other.2.head? with
        | some a, some b => some (differsMessage a b)
        | _, _ => none

def caseSiteErrors (s : Site TestCaseInfo) : List String :=
  s.rest.filterMap fun o =>
    if caseSemantics o.all ≠ caseSemantics s.first.all ∨ o.first.entityKey ≠ s.first.first.entityKey then
      some (differsMessage s.first.first o.first)
    else none

/-- What the owner of an entity is chosen by: a site and what one slot observed
there. -/
def caseOwnerKey (o : String × Observed TestCaseInfo) : Nat ×ₗ String ×ₗ Nat ×ₗ String ×ₗ String :=
  toLex (o.2.first.scanSlot, toLex (o.2.first.filename, toLex (o.2.first.line,
    toLex (o.2.first.tuFilename, o.1))))

def caseOwner (sites : List (Site TestCaseInfo)) : Option (Observed TestCaseInfo) :=
  (least (fun a b => caseOwnerKey a < caseOwnerKey b)
    (sites.flatMap fun s => s.occurrences.map fun o => (s.key, o))).map Prod.snd

def caseEntityErrors (sites : List (Site TestCaseInfo)) : List String :=
  match caseOwner sites with
  | none => []
  | some owner =>
    sites.filterMap fun s =>
      if caseSemantics s.first.all ≠ caseSemantics owner.all then
        some s!"gentest_codegen: annotated redeclarations of one entity differ:\n{owner.first.place}\n{s.first.first.place}"
      else none

def mergedCase (c : TestCaseInfo) : TestCaseInfo :=
  let dependencies := unique (std.sort (fun a b => a < b) c.registrationHeaders)
  { c with
    registrationHeaders :=
      (if c.filename = "" then [] else [c.filename]) ++ dependencies.filter (· ≠ c.filename) }

def ownerCases (sites : List (Site TestCaseInfo)) : List TestCaseInfo :=
  match caseOwner sites with
  | none => []
  | some owner => owner.all.map (mergedCase std)

def canonicalCases (cases : List TestCaseInfo) : List TestCaseInfo :=
  (sitesByEntity std caseGrouping cases).flatMap fun group => ownerCases std group.2

-- ---------------------------------------------------------------------------
-- The merge
-- ---------------------------------------------------------------------------

/-- Goes on unless something was reported. -/
def check (errors : List String) : Except (List String) Unit :=
  if errors = [] then .ok () else .error errors

def mergeHeaderDeclarationOccurrences (cases : List TestCaseInfo) (fixtures : List FixtureDeclInfo) :
    Except (List String) (List TestCaseInfo × List FixtureDeclInfo) := do
  check ((declarationSites std fixtureGrouping fixtures).flatMap fixtureSiteErrors)
  check ((sitesByEntity std fixtureGrouping fixtures).flatMap fun group => fixtureEntityErrors group.2)
  let resolution := resolveFreeFixtures cases fixtures
  check resolution.errors
  check ((byKey contextKey resolution.cases).flatMap fun group => inventoryErrors std group.2)
  check ((declarationSites std caseGrouping resolution.cases).flatMap caseSiteErrors)
  check ((sitesByEntity std caseGrouping resolution.cases).flatMap fun group => caseEntityErrors group.2)
  return (std.sort (fun a b => a.displayName < b.displayName) (canonicalCases std resolution.cases),
    std.sort (fun a b =>
      toLex (a.qualifiedName, toLex (a.declarationSiteKey, a.scanSlot)) <
        toLex (b.qualifiedName, toLex (b.declarationSiteKey, b.scanSlot)))
      (canonicalFixtures std fixtures))

end

end Gentest.Codegen
