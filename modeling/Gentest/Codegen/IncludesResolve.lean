import Gentest.Codegen.MockIncludes
import Gentest.Codegen.OutputsApart

/-!
# Includes of mocks that resolve

The includes of the header domain are spelled from the directory of `--mock-registry` and
stand in a file of another directory; the dispatchers name that file without its directory.
Both lead to what is meant where the directories agree, and only there.
-/

namespace Gentest.Codegen.MockIncludes

open Fallible LexicalPath MockManifest Sorting

-- ---------------------------------------------------------------------------
-- The property and its condition
-- ---------------------------------------------------------------------------

def headerRegistry (opts : CollectorOptions) : String := opts.mockDomainRegistryOutputs.getD 0 ""

def headerImpl (opts : CollectorOptions) : String := opts.mockDomainImplOutputs.getD 0 ""

def visibleSources (vol : Volume) (opts : CollectorOptions) : List (List FileName) :=
  opts.sources.map (normalizeAbsoluteLexical vol)

/-- What is included is meant: each definition once at least, by an include of its own, and
in the dispatchers the files of the header domain. -/
structure Resolved (vol : Volume) (disk : Disk) (opts : CollectorOptions) (aliases : List SourcePathAlias)
    (mocks : List MockInfo) (outputs : MockOutputs) : Prop where
  complete : ∀ mock ∈ mocks, mock.definitionKind = .headerLike →
    ∃ file ∈ outputs.additionalFiles, includePath opts aliases mock.definitionFile ∈ file.includes
  owned : ∀ file ∈ outputs.additionalFiles, ∀ literal ∈ file.includes,
    ∃ mock ∈ mocks, mock.definitionKind = .headerLike ∧ includePath opts aliases mock.definitionFile = literal
  definitions : ∀ file ∈ outputs.additionalFiles, ∀ literal ∈ file.includes, ∀ mock ∈ mocks,
    mock.definitionKind = .headerLike → includePath opts aliases mock.definitionFile = literal →
    vol.readInclude file.path literal = vol.locate mock.definitionFile
  registry : ∀ literal ∈ outputs.registryHeader, ∀ domain ∈ buildMockOutputDomains disk opts, domain.kind = .header →
    vol.readInclude opts.mockRegistryPath literal = vol.locate domain.registryPath
  implementation : ∀ literal ∈ outputs.implementationUnit, ∀ domain ∈ buildMockOutputDomains disk opts,
    domain.kind = .header → vol.readInclude opts.mockImplPath literal = vol.locate domain.implPath

/-- Whatever is mocked, with absolute definition files in normal form, as they are found. -/
def IncludesResolve (vol : Volume) (disk : Disk) (std : UnstableSort) (opts : CollectorOptions) (backend : MockBackend) :
    Prop :=
  ∀ mocks aliases outputs,
    (∀ mock ∈ mocks, mock.definitionKind = .headerLike → ∃ names, mock.definitionFile = absoluteText names) →
    BuildSourcePathAliases vol.toFileSystem (visibleSources vol opts) aliases →
    renderMocks vol disk std opts aliases mocks backend = .ok outputs → Resolved vol disk opts aliases mocks outputs

/-- The name of the one file leads to one place from the directories of both: they are one
directory, or a link stands in one of them. -/
def Beside (vol : Volume) (file other : String) : Prop :=
  vol.reach (vol.folder file) (stepsOf (fileName other)) = vol.reach (vol.folder other) (stepsOf (fileName other))

/-- Going up from the directory of a file ends, level by level, where the names of the other
directory end. -/
def SameLevels (vol : Volume) (file : String) (names : List FileName) : Prop :=
  ∀ level ≤ names.length,
    vol.reach (vol.folder file) (List.replicate (names.length - level) .up) = vol.resolve (names.take level)

structure OutputsBeside (vol : Volume) (opts : CollectorOptions) : Prop where
  registry : Beside vol opts.mockRegistryPath (headerRegistry opts)
  implementation : Beside vol opts.mockImplPath (headerImpl opts)
  levels : isRooted (registryDir opts) = true →
    SameLevels vol (headerRegistry opts) (walk [] (stepsOf (registryDir opts)))

-- ---------------------------------------------------------------------------
-- The header domain
-- ---------------------------------------------------------------------------

variable {vol : Volume} {disk : Disk} {std : UnstableSort} {opts : CollectorOptions} {backend : MockBackend}
  {aliases : List SourcePathAlias} {mocks : List MockInfo} {outputs : MockOutputs}

theorem validate_ok (h : validateMockOutputDomains disk opts = .ok ()) (hregistry : opts.mockRegistryPath ≠ "")
    (himpl : opts.mockImplPath ≠ "") :
    opts.mockDomainRegistryOutputs.length = (describeMockOutputDomains disk opts).length ∧
      opts.mockDomainImplOutputs.length = (describeMockOutputDomains disk opts).length := by
  unfold validateMockOutputDomains at h
  split at h
  · rw [if_pos ⟨hregistry, himpl⟩] at h
    cases h
  · split at h
    · cases h
    · split at h
      · cases h
      · dsimp only at h
        split at h
        · cases h
        · rename_i hlengths
          rw [not_or, not_not, not_not] at hlengths
          exact hlengths

theorem describe_eq (disk : Disk) (hregistry : opts.mockRegistryPath ≠ "") (himpl : opts.mockImplPath ≠ "") :
    ∃ names : List String, describeMockOutputDomains disk opts =
      {} :: names.map fun name => { kind := .namedModule, moduleName := name } := by
  rw [describeMockOutputDomains, if_neg fun h => hregistry h.1, if_neg (not_or.mpr ⟨hregistry, himpl⟩)]
  exact ⟨_, rfl⟩

theorem domains_eq (h : validateMockOutputDomains disk opts = .ok ()) (hregistry : opts.mockRegistryPath ≠ "")
    (himpl : opts.mockImplPath ≠ "") :
    ∃ others, buildMockOutputDomains disk opts =
        { kind := .header, registryPath := headerRegistry opts, implPath := headerImpl opts } :: others ∧
      ∀ domain ∈ others, domain.kind = .namedModule := by
  obtain ⟨hregistries, himpls⟩ := validate_ok h hregistry himpl
  obtain ⟨names, hdescribe⟩ := describe_eq disk hregistry himpl
  rw [hdescribe, List.length_cons] at hregistries himpls
  rw [buildMockOutputDomains, hdescribe, List.zipIdx_cons, List.map_cons]
  dsimp only
  rw [if_pos ⟨by omega, by omega⟩]
  refine ⟨_, rfl, fun domain hdomain => ?_⟩
  obtain ⟨⟨plan, idx⟩, hplan, rfl⟩ := List.mem_map.mp hdomain
  obtain ⟨name, -, rfl⟩ := List.mem_map.mp (List.fst_mem_of_mem_zipIdx hplan)
  dsimp only
  split
  · rfl
  · rfl

-- ---------------------------------------------------------------------------
-- What is included
-- ---------------------------------------------------------------------------

theorem mem_includeBlock {classes : List MockInfo} {includes : List String}
    (h : buildDefinitionIncludeBlock opts aliases classes = .ok includes) {literal : String} :
    literal ∈ includes ↔
      ∃ mock ∈ classes, mock.definitionKind = .headerLike ∧ includePath opts aliases mock.definitionFile = literal := by
  rw [buildDefinitionIncludeBlock] at h
  cases hpaths : classes.mapM (definitionInclude opts aliases) with
  | error error =>
    rw [hpaths] at h
    cases h
  | ok paths =>
    rw [hpaths] at h
    cases h
    rw [List.mem_insertionSort, List.mem_dedup]
    have hall := mapM_ok.mp hpaths
    clear hpaths
    induction hall with
    | nil => simp
    | @cons mock path mocks paths hmock _ ih =>
      rw [List.flatten_cons, List.mem_append, List.exists_mem_cons_iff]
      refine or_congr ?_ ih
      unfold definitionInclude at hmock
      split at hmock
      · rename_i hkind
        cases hmock
        simp [hkind]
      · rename_i hkind
        split at hmock
        · cases hmock
        · cases hmock
          simp [hkind, eq_comm]

theorem exists_includeBlock {classes : List MockInfo} (h : ∀ mock ∈ classes, mock.definitionFile ≠ "") :
    ∃ includes, buildDefinitionIncludeBlock opts aliases classes = .ok includes := by
  have hpaths : classes.mapM (definitionInclude opts aliases) =
      .ok (classes.map fun mock =>
        if mock.definitionKind = .namedModule then [] else [includePath opts aliases mock.definitionFile]) := by
    refine mapM_ok_of_forall fun mock hmock => ?_
    rw [definitionInclude]
    cases mock.definitionKind with
    | namedModule => rfl
    | headerLike => exact if_neg (h mock hmock)
  rw [buildDefinitionIncludeBlock, hpaths]
  exact ⟨_, rfl⟩

theorem collectedAliases_eq_nil (hsources : ∀ source ∈ visibleSources vol opts, ¬vol.toFileSystem.Linked source) :
    collectedAliases vol.toFileSystem (visibleSources vol opts) = [] := by
  refine List.eq_nil_iff_forall_not_mem.mpr fun entry hentry => ?_
  obtain ⟨source, hsource, hfailing, hchain⟩ := mem_collectedAliases.mp hentry
  refine hsources source hsource ⟨hfailing, fun heq => ?_⟩
  rw [heq, aliasChain, if_pos rfl] at hchain
  cases hchain

theorem built_iff (hsources : ∀ source ∈ visibleSources vol opts, ¬vol.toFileSystem.Linked source) :
    BuildSourcePathAliases vol.toFileSystem (visibleSources vol opts) aliases ↔ aliases = [] := by
  rw [BuildSourcePathAliases, collectedAliases_eq_nil hsources]
  constructor
  · rintro ⟨sorted, hperm, -, rfl⟩
    rw [List.perm_nil.mp hperm]
    rfl
  · rintro rfl
    exact ⟨[], .refl _, .nil, rfl⟩

-- ---------------------------------------------------------------------------
-- What is rendered
-- ---------------------------------------------------------------------------

/-- The files of a run: the header domain's registry, with the includes, and files that
include nothing. -/
structure Rendered (opts : CollectorOptions) (aliases : List SourcePathAlias) (mocks : List MockInfo)
    (outputs : MockOutputs) : Prop where
  registry : outputs.registryHeader = [fileName (headerRegistry opts)]
  implementation : outputs.implementationUnit = [fileName (headerImpl opts)]
  present : ∃ file ∈ outputs.additionalFiles, ∀ mock ∈ mocks, mock.definitionKind = .headerLike →
    includePath opts aliases mock.definitionFile ∈ file.includes
  included : ∀ file ∈ outputs.additionalFiles, ∀ literal ∈ file.includes, file.path = headerRegistry opts ∧
    ∃ mock ∈ mocks, mock.definitionKind = .headerLike ∧ includePath opts aliases mock.definitionFile = literal

theorem mem_domainClasses {domain : MockOutputDomainPlan} {mock : MockInfo} :
    mock ∈ domainClasses std mocks domain ↔ mock ∈ mocks ∧
      match domain.kind with
      | .header => mock.definitionKind = .headerLike
      | .namedModule => mock.definitionKind = .namedModule ∧ mock.definitionModuleName = domain.moduleName := by
  rw [domainClasses, List.mem_filter, byQualifiedName, std.mem_sort]
  refine and_congr_right fun _ => ?_
  cases domain.kind with
  | header => exact decide_eq_true_iff
  | namedModule => exact decide_eq_true_iff

theorem withDispatchers_header {domain : MockOutputDomainPlan} (hkind : domain.kind = .header)
    (others : List MockOutputDomainPlan) (files : List MockGeneratedFile) :
    withDispatchers (domain :: others) files =
      .ok
        { registryHeader := [fileName domain.registryPath]
          implementationUnit := [fileName domain.implPath]
          additionalFiles := files } := by
  rw [withDispatchers, List.find?_cons_of_pos (by simpa using hkind)]
  rfl

theorem domainFiles_ok {domain : MockOutputDomainPlan} {files : List MockGeneratedFile} :
    domainFiles std opts aliases mocks domain = .ok files ↔
      ∃ includes, buildDefinitionIncludeBlock opts aliases (domainClasses std mocks domain) = .ok includes ∧
        files = [{ path := domain.registryPath, includes }, { path := domain.implPath, includes := [] }] := by
  rw [domainFiles, bind_ok]
  refine exists_congr fun includes => and_congr_right fun _ => ?_
  constructor
  · intro h
    cases h
    rfl
  · rintro rfl
    rfl

theorem domainFiles_included {domain : MockOutputDomainPlan} {files : List MockGeneratedFile}
    (h : domainFiles std opts aliases mocks domain = .ok files) :
    ∀ file ∈ files, ∀ literal ∈ file.includes, domain.kind = .header ∧ file.path = domain.registryPath ∧
      ∃ mock ∈ mocks, mock.definitionKind = .headerLike ∧ includePath opts aliases mock.definitionFile = literal := by
  obtain ⟨includes, hincludes, rfl⟩ := domainFiles_ok.mp h
  intro file hfile literal hliteral
  simp only [List.mem_cons, List.not_mem_nil, or_false] at hfile
  obtain rfl | rfl := hfile
  · obtain ⟨mock, hmock, hkind, hpath⟩ := (mem_includeBlock hincludes).mp hliteral
    obtain ⟨hmem, hdomain⟩ := mem_domainClasses.mp hmock
    refine ⟨?_, rfl, mock, hmem, hkind, hpath⟩
    cases hplan : domain.kind with
    | header => rfl
    | namedModule =>
      rw [hplan, hkind] at hdomain
      cases hdomain.1
  · cases hliteral

theorem renderedGentest {others : List MockOutputDomainPlan} (hothers : ∀ domain ∈ others, domain.kind = .namedModule)
    (h : renderGentestMocks std opts aliases mocks
      ({ kind := .header, registryPath := headerRegistry opts, implPath := headerImpl opts } :: others) = .ok outputs) :
    Rendered opts aliases mocks outputs := by
  obtain ⟨files, hfiles, h⟩ := bind_ok.mp h
  rw [withDispatchers_header rfl] at h
  cases h
  rw [List.mapM_cons] at hfiles
  obtain ⟨first, hfirst, hfiles⟩ := bind_ok.mp hfiles
  obtain ⟨rest, hrest, hfiles⟩ := bind_ok.mp hfiles
  cases hfiles
  refine ⟨rfl, rfl, ?_, ?_⟩
  · obtain ⟨includes, hincludes, rfl⟩ := domainFiles_ok.mp hfirst
    refine ⟨_, List.mem_flatten_of_mem List.mem_cons_self List.mem_cons_self, fun mock hmock hkind => ?_⟩
    exact (mem_includeBlock hincludes).mpr ⟨mock, mem_domainClasses.mpr ⟨hmock, hkind⟩, hkind, rfl⟩
  · intro file hfile literal hliteral
    rw [List.flatten_cons, List.mem_append] at hfile
    obtain hfile | hfile := hfile
    · obtain ⟨-, hpath, hmock⟩ := domainFiles_included hfirst file hfile literal hliteral
      exact ⟨hpath, hmock⟩
    · obtain ⟨more, hmore, hmem⟩ := List.mem_flatten.mp hfile
      obtain ⟨domain, hdomain, hrun⟩ := exists_of_mapM_ok hrest hmore
      obtain ⟨hkind, -⟩ := domainFiles_included hrun file hmem literal hliteral
      rw [hothers domain hdomain] at hkind
      cases hkind

theorem renderedThirdParty {others : List MockOutputDomainPlan}
    (h : renderThirdPartyMocks vol std opts aliases mocks backend
      ({ kind := .header, registryPath := headerRegistry opts, implPath := headerImpl opts } :: others) = .ok outputs) :
    Rendered opts aliases mocks outputs := by
  obtain ⟨_, -, h⟩ := bind_ok.mp h
  obtain ⟨includes, hincludes, h⟩ := bind_ok.mp h
  rw [withDispatchers_header rfl] at h
  cases h
  refine ⟨rfl, rfl, ⟨_, List.mem_append_left _ List.mem_cons_self, fun mock hmock hkind => ?_⟩, ?_⟩
  · exact (mem_includeBlock hincludes).mpr ⟨mock, std.mem_sort.mpr hmock, hkind, rfl⟩
  · intro file hfile literal hliteral
    obtain rfl | hempty : file = { path := headerRegistry opts, includes } ∨ file.includes = [] := by
      simp only [List.mem_append, List.mem_cons, List.not_mem_nil, or_false, List.mem_flatMap] at hfile
      obtain (rfl | rfl) | ⟨domain, -, rfl | rfl⟩ := hfile
      · exact .inl rfl
      · exact .inr rfl
      · exact .inr rfl
      · exact .inr rfl
    · obtain ⟨mock, hmock, hkind, hpath⟩ := (mem_includeBlock hincludes).mp hliteral
      exact ⟨rfl, mock, std.mem_sort.mp hmock, hkind, hpath⟩
    · rw [hempty] at hliteral
      cases hliteral

def plainMock (definitionFile : String) : MockInfo := { qualifiedName := "Plain", definitionFile, displayName := "Plain" }

theorem refusal_plainMock (vol : Volume) (backend : MockBackend) (definitionFile : String) :
    refusal vol backend (plainMock definitionFile) = none := by
  have hclass : unsupportedClassReason vol backend (plainMock definitionFile) = none := by
    simp [unsupportedClassReason, plainMock]
  rw [refusal, if_neg (by simp [plainMock]), hclass]
  rfl

theorem domainFiles_of_files (domain : MockOutputDomainPlan) (hfiles : ∀ mock ∈ mocks, mock.definitionFile ≠ "") :
    ∃ files, domainFiles std opts aliases mocks domain = .ok files := by
  obtain ⟨includes, hincludes⟩ : ∃ includes,
      buildDefinitionIncludeBlock opts aliases (domainClasses std mocks domain) = .ok includes :=
    exists_includeBlock fun mock hmock => hfiles mock (mem_domainClasses.mp hmock).1
  exact ⟨_, domainFiles_ok.mpr ⟨includes, hincludes, rfl⟩⟩

theorem exists_renderedGentest {domain : MockOutputDomainPlan} (hkind : domain.kind = .header)
    (others : List MockOutputDomainPlan) (hfiles : ∀ mock ∈ mocks, mock.definitionFile ≠ "") :
    ∃ outputs, renderGentestMocks std opts aliases mocks (domain :: others) = .ok outputs := by
  have hfound : ∀ domain, ∃ files, domainFiles std opts aliases mocks domain = .ok files := fun domain =>
    domainFiles_of_files domain hfiles
  choose files hrun using hfound
  exact ⟨_, bind_ok.mpr ⟨_, mapM_ok_of_forall fun domain _ => hrun domain, withDispatchers_header hkind others _⟩⟩

theorem exists_renderedThirdParty {domain : MockOutputDomainPlan} (hkind : domain.kind = .header)
    (others : List MockOutputDomainPlan) (hfiles : ∀ mock ∈ mocks, mock.definitionFile ≠ "")
    (hmocks : ∀ mock ∈ mocks, refusal vol backend mock = none) :
    ∃ outputs, renderThirdPartyMocks vol std opts aliases mocks backend (domain :: others) = .ok outputs := by
  obtain ⟨includes, hincludes⟩ : ∃ includes,
      buildDefinitionIncludeBlock opts aliases (byQualifiedName std mocks) = .ok includes :=
    exists_includeBlock fun mock hmock => hfiles mock (std.mem_sort.mp hmock)
  have hrefuse : refuse (mocks.findSome? (refusal vol backend)) = .ok () :=
    refuse_ok.mpr (List.findSome?_eq_none_iff.mpr hmocks)
  have hfirst : (domain :: others).find? (·.kind = .header) = some domain :=
    List.find?_cons_of_pos (by simpa using hkind)
  simp only [renderThirdPartyMocks, hrefuse, hfirst, hincludes, withDispatchers_header hkind, bind, Except.bind]
  exact ⟨_, rfl⟩

theorem rendered_of_ok (hdomains : validateMockOutputDomains disk opts = .ok ()) (hregistry : opts.mockRegistryPath ≠ "")
    (himpl : opts.mockImplPath ≠ "") (h : renderMocks vol disk std opts aliases mocks backend = .ok outputs) :
    Rendered opts aliases mocks outputs := by
  obtain ⟨others, hbuilt, hothers⟩ := domains_eq hdomains hregistry himpl
  unfold renderMocks at h
  rw [hbuilt] at h
  cases backend with
  | gentest => exact renderedGentest hothers h
  | gMock => exact renderedThirdParty h
  | trompeloeil => exact renderedThirdParty h

theorem exists_rendered (hdomains : validateMockOutputDomains disk opts = .ok ()) (hregistry : opts.mockRegistryPath ≠ "")
    (himpl : opts.mockImplPath ≠ "") (hfiles : ∀ mock ∈ mocks, mock.definitionFile ≠ "")
    (hmocks : ∀ mock ∈ mocks, refusal vol backend mock = none) :
    ∃ outputs, renderMocks vol disk std opts aliases mocks backend = .ok outputs := by
  obtain ⟨others, hbuilt, -⟩ := domains_eq hdomains hregistry himpl
  unfold renderMocks
  rw [hbuilt]
  cases backend with
  | gentest => exact exists_renderedGentest rfl others hfiles
  | gMock => exact exists_renderedThirdParty rfl others hfiles hmocks
  | trompeloeil => exact exists_renderedThirdParty rfl others hfiles hmocks

-- ---------------------------------------------------------------------------
-- What the includes denote
-- ---------------------------------------------------------------------------

theorem includePath_rooted (names : List FileName) (h : isRooted (registryDir opts) = true) :
    includePath opts [] (absoluteText names) =
      relativeText (relative names (walk [] (stepsOf (registryDir opts)))) := by
  have hnames : walk [] (stepsOf (absoluteText names)) = names := by
    rw [stepsOf_absoluteText, walk_names, List.nil_append]
  unfold includePath
  rw [isRooted_absoluteText, h, hnames]
  simp [remapToVisibleSourcePath, SpelledPath.relativeTo]

theorem includePath_unrooted (names : List FileName) (h : isRooted (registryDir opts) = false) :
    includePath opts [] (absoluteText names) = absoluteText names := by
  have hnames : walk [] (stepsOf (absoluteText names)) = names := by
    rw [stepsOf_absoluteText, walk_names, List.nil_append]
  unfold includePath
  rw [isRooted_absoluteText, h, hnames]
  simp [remapToVisibleSourcePath, SpelledPath.text]

theorem readInclude_relativeText (file : String) (path base : List FileName) :
    vol.readInclude file (relativeText (relative path base)) =
      vol.resolve ((vol.folder file).take ((vol.folder file).length - (base.length - common path base)) ++
        path.drop (common path base)) := by
  rw [Volume.readInclude, isRooted_relativeText, stepsOf_relativeText]
  exact Volume.reach_relative (vol.locate_resolved _) path base

theorem readInclude_absoluteText (file : String) (names : List FileName) :
    vol.readInclude file (absoluteText names) = vol.locate (absoluteText names) := by
  rw [Volume.readInclude, isRooted_absoluteText, Volume.locate, isRooted_absoluteText, if_pos rfl, if_pos rfl]

theorem readInclude_of_sameLevels {file : String} {base : List FileName} (h : SameLevels vol file base)
    (path : List FileName) : vol.readInclude file (relativeText (relative path base)) = vol.resolve path := by
  have hlevel := h (common path base) (common_le_right path base)
  rw [Volume.reach_ups] at hlevel
  rw [readInclude_relativeText, hlevel, ← vol.resolve_append, ← take_common, List.take_append_drop]

/-- A path that leaves the other one at a level tells where that level is. -/
theorem level_of_readInclude {file : String} {base : List FileName} {level : Nat} (hlevel : level ≤ base.length)
    {name : FileName} (hnew : name ∉ base) (hplain : ∀ dir, vol.resolve dir = dir → vol.resolve (dir ++ [name]) = dir ++ [name])
    (h : vol.readInclude file (relativeText (relative (base.take level ++ [name]) base)) =
      vol.resolve (base.take level ++ [name])) :
    vol.reach (vol.folder file) (List.replicate (base.length - level) .up) = vol.resolve (base.take level) := by
  have hcommon : common (base.take level ++ [name]) base = level := by
    have happ := common_append (base.take level) [name] (base.drop level)
    have hparts : common [name] (base.drop level) = 0 := by
      cases hdrop : base.drop level with
      | nil => rfl
      | cons other rest =>
        have hne : name ≠ other := fun heq => hnew (List.mem_of_mem_drop (by rw [hdrop, heq]; exact List.mem_cons_self))
        exact if_neg hne
    rw [List.take_append_drop, hparts, List.length_take, Nat.min_eq_left hlevel] at happ
    exact happ
  have hups := Volume.reach_resolved (vol.locate_resolved (parentPath file)) (List.replicate (base.length - level) .up)
  have hdrop : (base.take level ++ [name]).drop level = [name] := by
    rw [List.drop_append_of_le_length (by rw [List.length_take, Nat.min_eq_left hlevel]), List.drop_take]
    simp
  rw [readInclude_relativeText, hcommon, hdrop, vol.resolve_append (base.take level),
    hplain _ (vol.resolve_resolve (base.take level))] at h
  rw [Volume.reach_ups] at hups ⊢
  exact List.append_cancel_right ((hplain _ hups).symm.trans h)

/-- A file name alone is read in the directory of the file that includes it. -/
theorem readInclude_fileName (file other : String) :
    vol.readInclude file (fileName other) = vol.reach (vol.folder file) (stepsOf (fileName other)) := by
  obtain ⟨_, _, -, hslash, -, -⟩ := exists_parent other
  have hrelative : isRooted (fileName other) = false := by
    rw [isRooted, beq_eq_false_iff_ne]
    exact fun hhead => hslash (List.mem_of_mem_head? hhead)
  rw [Volume.readInclude, hrelative]
  rfl

theorem readInclude_fileName_iff (file other : String) :
    vol.readInclude file (fileName other) = vol.locate other ↔ Beside vol file other := by
  rw [readInclude_fileName, vol.locate_eq, Beside]

-- ---------------------------------------------------------------------------
-- Both directions
-- ---------------------------------------------------------------------------

theorem resolve_of_beside (hdomains : validateMockOutputDomains disk opts = .ok ())
    (hregistry : opts.mockRegistryPath ≠ "") (himpl : opts.mockImplPath ≠ "")
    (hsources : ∀ source ∈ visibleSources vol opts, ¬vol.toFileSystem.Linked source) (h : OutputsBeside vol opts) :
    IncludesResolve vol disk std opts backend := by
  intro mocks aliases outputs hfiles hbuilt hrender
  obtain rfl := (built_iff hsources).mp hbuilt
  have hrendered := rendered_of_ok hdomains hregistry himpl hrender
  obtain ⟨others, hplan, hothers⟩ := domains_eq hdomains hregistry himpl
  have hheader : ∀ domain ∈ buildMockOutputDomains disk opts, domain.kind = .header →
      domain.registryPath = headerRegistry opts ∧ domain.implPath = headerImpl opts := by
    intro domain hdomain hkind
    rw [hplan] at hdomain
    obtain rfl | hdomain := List.mem_cons.mp hdomain
    · exact ⟨rfl, rfl⟩
    · rw [hothers domain hdomain] at hkind
      cases hkind
  obtain ⟨file, hfile, hpresent⟩ := hrendered.present
  refine ⟨fun mock hmock hkind => ⟨file, hfile, hpresent mock hmock hkind⟩,
    fun file hfile literal hliteral => (hrendered.included file hfile literal hliteral).2, ?_, ?_, ?_⟩
  · rintro file hfile literal hliteral mock hmock hkind rfl
    obtain ⟨names, hnames⟩ := hfiles mock hmock hkind
    rw [(hrendered.included file hfile _ hliteral).1, hnames]
    cases hrooted : isRooted (registryDir opts) with
    | false => rw [includePath_unrooted names hrooted, readInclude_absoluteText]
    | true =>
      rw [includePath_rooted names hrooted, readInclude_of_sameLevels (h.levels hrooted), vol.locate_absoluteText]
  · intro literal hliteral domain hdomain hkind
    rw [hrendered.registry, List.mem_singleton] at hliteral
    rw [hliteral, (hheader domain hdomain hkind).1]
    exact (readInclude_fileName_iff _ _).mpr h.registry
  · intro literal hliteral domain hdomain hkind
    rw [hrendered.implementation, List.mem_singleton] at hliteral
    rw [hliteral, (hheader domain hdomain hkind).2]
    exact (readInclude_fileName_iff _ _).mpr h.implementation

theorem absoluteText_ne_empty (names : List FileName) : absoluteText names ≠ "" := by
  intro h
  have hrooted := isRooted_absoluteText names
  rw [h] at hrooted
  cases hrooted

theorem readInclude_of_resolve (hdomains : validateMockOutputDomains disk opts = .ok ())
    (hregistry : opts.mockRegistryPath ≠ "") (himpl : opts.mockImplPath ≠ "")
    (hsources : ∀ source ∈ visibleSources vol opts, ¬vol.toFileSystem.Linked source)
    (h : IncludesResolve vol disk std opts backend) (hrooted : isRooted (registryDir opts) = true)
    (names : List FileName) :
    vol.readInclude (headerRegistry opts) (relativeText (relative names (walk [] (stepsOf (registryDir opts))))) =
      vol.resolve names := by
  have hfile : ∀ mock ∈ [plainMock (absoluteText names)], mock.definitionFile = absoluteText names := by
    intro mock hmock
    rw [List.mem_singleton.mp hmock]
    rfl
  have htaken : ∀ mock ∈ [plainMock (absoluteText names)], refusal vol backend mock = none := by
    intro mock hmock
    rw [List.mem_singleton.mp hmock]
    exact refusal_plainMock vol backend _
  have hnamed : ∀ mock ∈ [plainMock (absoluteText names)], mock.definitionFile ≠ "" := fun mock hmock => by
    rw [hfile mock hmock]
    exact absoluteText_ne_empty names
  obtain ⟨outputs, hrender⟩ : ∃ outputs,
      renderMocks vol disk std opts [] [plainMock (absoluteText names)] backend = .ok outputs :=
    exists_rendered hdomains hregistry himpl hnamed htaken
  have hrendered := rendered_of_ok hdomains hregistry himpl hrender
  have hresolved := h _ [] outputs (fun mock hmock _ => ⟨names, hfile mock hmock⟩) ((built_iff hsources).mpr rfl) hrender
  obtain ⟨file, hmem, hpresent⟩ := hrendered.present
  have hliteral := hpresent _ List.mem_cons_self rfl
  have hread := hresolved.definitions file hmem _ hliteral _ List.mem_cons_self rfl rfl
  rw [(hrendered.included file hmem _ hliteral).1, hfile _ List.mem_cons_self, includePath_rooted names hrooted,
    vol.locate_absoluteText] at hread
  exact hread

theorem beside_of_resolve (hdomains : validateMockOutputDomains disk opts = .ok ())
    (hregistry : opts.mockRegistryPath ≠ "") (himpl : opts.mockImplPath ≠ "")
    (hsources : ∀ source ∈ visibleSources vol opts, ¬vol.toFileSystem.Linked source)
    (h : IncludesResolve vol disk std opts backend) : OutputsBeside vol opts := by
  obtain ⟨others, hplan, -⟩ := domains_eq hdomains hregistry himpl
  have hheader : { kind := .header, registryPath := headerRegistry opts, implPath := headerImpl opts } ∈
      buildMockOutputDomains disk opts := by
    rw [hplan]
    exact List.mem_cons_self
  obtain ⟨outputs, hrender⟩ : ∃ outputs, renderMocks vol disk std opts [] [] backend = .ok outputs :=
    exists_rendered hdomains hregistry himpl (List.forall_mem_nil _) (List.forall_mem_nil _)
  have hrendered := rendered_of_ok hdomains hregistry himpl hrender
  have hresolved := h [] [] outputs (List.forall_mem_nil _) ((built_iff hsources).mpr rfl) hrender
  have hdispatched : fileName (headerRegistry opts) ∈ outputs.registryHeader := by
    rw [hrendered.registry]
    exact List.mem_singleton_self _
  have hdispatched' : fileName (headerImpl opts) ∈ outputs.implementationUnit := by
    rw [hrendered.implementation]
    exact List.mem_singleton_self _
  have hregistryRead := hresolved.registry _ hdispatched _ hheader rfl
  have himplRead := hresolved.implementation _ hdispatched' _ hheader rfl
  refine ⟨(readInclude_fileName_iff _ _).mp hregistryRead, (readInclude_fileName_iff _ _).mp himplRead,
    fun hrooted level hlevel => ?_⟩
  -- a definition beside the level, under a name that no link has
  obtain ⟨name, hnew, hplain⟩ := vol.spare (walk [] (stepsOf (registryDir opts)))
  exact level_of_readInclude hlevel hnew hplain
    (readInclude_of_resolve hdomains hregistry himpl hsources h hrooted _)

/-- Accepted outputs have includes that resolve exactly if the header domain's files lie
where `--mock-registry` and `--mock-impl` are. -/
theorem includesResolve_iff (hdomains : validateMockOutputDomains disk opts = .ok ())
    (hregistry : opts.mockRegistryPath ≠ "") (himpl : opts.mockImplPath ≠ "")
    (hsources : ∀ source ∈ visibleSources vol opts, ¬vol.toFileSystem.Linked source) :
    IncludesResolve vol disk std opts backend ↔ OutputsBeside vol opts :=
  ⟨beside_of_resolve hdomains hregistry himpl hsources, resolve_of_beside hdomains hregistry himpl hsources⟩

-- ---------------------------------------------------------------------------
-- Without links
-- ---------------------------------------------------------------------------

def longName (length : Nat) : FileName where
  text := String.ofList (List.replicate (length + 3) 'a')
  proper := by
    constructor
    · intro hword
      have hlength : (String.ofList (List.replicate (length + 3) 'a')).length = length + 3 := by simp
      simp only [List.mem_cons, List.not_mem_nil, or_false] at hword
      obtain h | h | h := hword
      · rw [h] at hlength
        exact absurd hlength (Nat.ne_of_lt (Nat.succ_pos _))
      · rw [h] at hlength
        exact absurd hlength (Nat.ne_of_lt (Nat.succ_lt_succ (Nat.succ_pos _)))
      · rw [h] at hlength
        exact absurd hlength (Nat.ne_of_lt (Nat.succ_lt_succ (Nat.succ_lt_succ (Nat.succ_pos _))))
    · rw [String.toList_ofList]
      exact fun hslash => absurd (List.eq_of_mem_replicate hslash) (by decide)

theorem exists_longName (avoid : List FileName) : ∃ name, name ∉ avoid := by
  refine ⟨longName (avoid.map fun name => name.text.length).sum, fun hmem => ?_⟩
  have hle := List.le_sum_of_mem (List.mem_map_of_mem (f := fun name : FileName => name.text.length) hmem)
  have hlength : ∀ length, (longName length).text.length = length + 3 := fun length => by simp [longName]
  rw [hlength] at hle
  omega

def unlinkedVolume : Volume where
  resolve path := path
  isDirectory _ := true
  resolve_append _ _ := rfl
  root_resolved := rfl
  parent_resolved _ _ := rfl
  current := []
  current_resolved := rfl
  spare avoid := (exists_longName avoid).imp fun _ hnew => ⟨hnew, fun _ _ => rfl⟩

theorem unlinkedVolume_sources (opts : CollectorOptions) :
    ∀ source ∈ visibleSources unlinkedVolume opts, ¬unlinkedVolume.toFileSystem.Linked source :=
  fun _ _ hlinked => hlinked.2 rfl

/-- The mock outputs are in one directory, those of the header domain in another one. -/
def mockOptions (domainDir : String) : CollectorOptions where
  mockRegistryPath := "/out/mocks.hpp"
  mockImplPath := "/out/mocks_impl.hpp"
  mockDomainRegistryOutputs := [domainDir ++ "/header.hpp"]
  mockDomainImplOutputs := [domainDir ++ "/header_impl.hpp"]
  sources := ["/src/tests.cpp"]

theorem oneDirectory_includesResolve :
    IncludesResolve unlinkedVolume plainDisk insertion (mockOptions "/out") .gentest := by
  refine (includesResolve_iff (by decide +kernel) (by decide) (by decide) (unlinkedVolume_sources _)).mpr ?_
  refine ⟨?_, ?_, fun _ => ?_⟩
  · unfold Beside
    decide +kernel
  · unfold Beside
    decide +kernel
  · unfold SameLevels
    decide +kernel

/-- The header domain has a directory of its own, where the dispatcher does not look. -/
theorem ownDirectory_not_includesResolve :
    validateMockOutputDomains plainDisk (mockOptions "/out/domains") = .ok () ∧
      validateGeneratedArtifactOutputs plainDisk (mockOptions "/out/domains") insertion = .ok () ∧
      ¬IncludesResolve unlinkedVolume plainDisk insertion (mockOptions "/out/domains") .gentest := by
  refine ⟨by decide +kernel, by decide +kernel, fun h => ?_⟩
  have hbeside := beside_of_resolve (by decide +kernel) (by decide) (by decide) (unlinkedVolume_sources _) h
  have hapart : ¬Beside unlinkedVolume "/out/mocks.hpp" (headerRegistry (mockOptions "/out/domains")) := by
    unfold Beside
    decide +kernel
  exact hapart hbeside.registry

end Gentest.Codegen.MockIncludes
