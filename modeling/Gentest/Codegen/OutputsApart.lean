import Gentest.Codegen.Emit
import Gentest.Lib.Decimal
import Gentest.Lib.Fallible

/-!
# Outputs and inputs are kept apart

What a run writes follows a plan that its options fix: on success all of it, else a
part. Each planned output is among those that the check compares, so no output takes
the place of another. Of the inputs the check leaves out the mock registration
manifest.
-/

namespace Gentest.Codegen

open Sorting Fallible

-- ---------------------------------------------------------------------------
-- Following a plan
-- ---------------------------------------------------------------------------

def Emitted.paths (o : Emitted) : List String := o.writes.map Prod.fst

/-- What is written is a part of the plan, all of it if nothing fails. -/
structure Emitted.Follows (o : Emitted) (plan : List String) : Prop where
  part : o.paths.Sublist plan
  all : o.errors = [] → o.paths = plan
  named : ∀ path ∈ o.paths, path ≠ ""

theorem Emitted.follows_fail (error : String) (plan : List String) : (Emitted.fail error).Follows plan where
  part := List.nil_sublist plan
  all h := by cases h
  named path h := by cases h

theorem Emitted.follows_nil : ({} : Emitted).Follows [] where
  part := List.Sublist.refl _
  all _ := rfl
  named path h := by cases h

theorem Emitted.follows_check (error : Option String) : (Emitted.check error).Follows [] := by
  cases error with
  | none => exact Emitted.follows_nil
  | some error => exact Emitted.follows_fail error []

theorem follows_writeFile (disk : Disk) (path : String) (text : FileText) :
    (writeFile disk path text).Follows [path] := by
  unfold writeFile
  split
  · exact Emitted.follows_fail _ _
  · rename_i hwrite
    refine ⟨List.Sublist.refl _, fun _ => rfl, ?_⟩
    intro p hp hempty
    have hpath : p = path := List.mem_singleton.mp hp
    rw [← hpath, hempty] at hwrite
    exact disk.emptyPath hwrite

theorem Emitted.Follows.andThen {first second : Emitted} {plan next : List String} (hfirst : first.Follows plan)
    (hsecond : second.Follows next) : (first.andThen second).Follows (plan ++ next) := by
  unfold Emitted.andThen
  split
  · rename_i hok
    have hpaths : (Emitted.mk (first.writes ++ second.writes) second.errors).paths = first.paths ++ second.paths :=
      List.map_append
    refine ⟨?_, ?_, ?_⟩
    · rw [hpaths]
      exact hfirst.part.append hsecond.part
    · intro h
      rw [hpaths, hfirst.all hok, hsecond.all h]
    · intro path hpath
      rw [hpaths] at hpath
      exact (List.mem_append.mp hpath).elim (hfirst.named path) (hsecond.named path)
  · rename_i hfailed
    refine ⟨hfirst.part.trans (List.sublist_append_left ..), fun h => absurd h hfailed, hfirst.named⟩

theorem Emitted.follows_all {ι : Type} {is : List ι} {step : ι → Emitted} {plan : ι → List String}
    (h : ∀ i ∈ is, (step i).Follows (plan i)) : (Emitted.all (is.map step)).Follows (is.flatMap plan) := by
  induction is with
  | nil => exact Emitted.follows_nil
  | cons i is ih =>
    obtain ⟨hi, his⟩ := List.forall_mem_cons.mp h
    have hrest := ih his
    have hpaths : (Emitted.all ((i :: is).map step)).paths = (step i).paths ++ (Emitted.all (is.map step)).paths := by
      simp [Emitted.all, Emitted.paths]
    have herrors : (Emitted.all ((i :: is).map step)).errors =
        (step i).errors ++ (Emitted.all (is.map step)).errors := rfl
    refine ⟨?_, ?_, ?_⟩
    · rw [hpaths, List.flatMap_cons]
      exact hi.part.append hrest.part
    · intro hok
      rw [herrors, List.append_eq_nil_iff] at hok
      rw [hpaths, hi.all hok.1, hrest.all hok.2, List.flatMap_cons]
    · intro path hpath
      rw [hpaths] at hpath
      exact (List.mem_append.mp hpath).elim (hi.named path) (hrest.named path)

-- ---------------------------------------------------------------------------
-- The plan
-- ---------------------------------------------------------------------------

section

variable (disk : Disk) (opts : CollectorOptions)

def slotPlan (idx : Nat) : List Artifact :=
  if opts.textualRegistrationOutputs ≠ [] then [.slot .textualRegistration idx]
  else
    .slot .tuHeader idx ::
      if isModuleInterfaceSource disk opts (opts.source idx) then
        if opts.moduleRegistrationOutputs ≠ [] then [.slot .moduleRegistration idx] else [.slot .moduleWrapper idx]
      else []

def registrationPlan : List Artifact :=
  if opts.tuOutputDir = "" then [] else (List.range opts.sources.length).flatMap (slotPlan disk opts)

/-- The manifest of either kind of registration has the same path. -/
def manifestPlan : List Artifact :=
  if opts.artifactManifestPath = "" then []
  else
    (if opts.moduleRegistrationOutputs = [] then [] else [.single .artifactManifest]) ++
      if opts.textualRegistrationOutputs = [] then [] else [.single .artifactManifest]

def mockPlan : List Artifact :=
  if opts.mockRegistryPath ≠ "" ∧ opts.mockImplPath ≠ "" then
    [.single .mockRegistry, .single .mockImpl] ++ (if opts.mockPublicHeaderPath = "" then [] else [.single .mockPublicHeader]) ++
      (List.range (describeMockOutputDomains disk opts).length).flatMap fun idx =>
        [.slot .mockDomainRegistry idx, .slot .mockDomainImpl idx]
  else []

def depfilePlan : List Artifact :=
  if opts.depfilePath.getD "" = "" ∨ depfileTargetsFor disk opts = [] then [] else [.single .depfile]

/-- The outputs that a run of these options writes if nothing fails. -/
def plannedArtifacts : List Artifact :=
  (if opts.mockManifestOutputPath = "" then [] else [.single .mockManifest]) ++
    if opts.mockManifestDiscoveryOnly then depfilePlan disk opts
    else
      (if opts.mockAggregateModulePath = "" then [] else [.single .mockAggregateModule]) ++
        (registrationPlan disk opts ++ (manifestPlan opts ++ mockPlan disk opts) ++ depfilePlan disk opts)

end

section

variable {std : UnstableSort} {disk : Disk} {opts : CollectorOptions} {data : PerSourceEmitData} {idx : Nat}
  {wrapperSource : String → PerSourceEmitData → Option String} {renderError : List MockClassInfo → Option String}
  {moduleNames : List String} {cases : List TestCaseInfo} {fixtures : List FixtureDeclInfo}
  {mocks : List MockClassInfo}

theorem follows_textualSlot (headers : List String) :
    (textualSlot disk opts headers data idx).Follows [(Artifact.slot .textualRegistration idx).path opts] := by
  unfold textualSlot
  split
  · exact Emitted.follows_fail _ _
  · split
    · exact Emitted.follows_fail _ _
    · rename_i out hout
      have hpath : (Artifact.slot .textualRegistration idx).path opts = out := by
        simp [Artifact.path, List.getD_eq_getElem?_getD, hout]
      rw [hpath]
      split
      · exact Emitted.follows_fail _ _
      · exact follows_writeFile disk out _

theorem follows_moduleRegistrationFile :
    (moduleRegistrationFile disk opts data idx).Follows [(Artifact.slot .moduleRegistration idx).path opts] := by
  unfold moduleRegistrationFile
  split
  · exact Emitted.follows_fail _ _
  · split
    · rename_i name out hname hout
      have hpath : (Artifact.slot .moduleRegistration idx).path opts = out := by
        simp [Artifact.path, List.getD_eq_getElem?_getD, hout]
      rw [hpath]
      split
      · exact Emitted.follows_fail _ _
      · split
        · exact Emitted.follows_fail _ _
        · exact follows_writeFile disk out _
    · exact Emitted.follows_fail _ _
    · exact Emitted.follows_fail _ _

theorem follows_moduleWrapperFile :
    (moduleWrapperFile disk opts wrapperSource data idx).Follows [(Artifact.slot .moduleWrapper idx).path opts] := by
  unfold moduleWrapperFile
  split
  · exact Emitted.follows_fail _ _
  · exact Emitted.follows_fail _ _
  · rename_i text out htext hout
    have hpath : (Artifact.slot .moduleWrapper idx).path opts = out := by
      simp [Artifact.path, List.getD_eq_getElem?_getD, hout]
    rw [hpath]
    exact follows_writeFile disk out _

theorem follows_slot (headers : List String) :
    (if opts.textualRegistrationOutputs ≠ [] then textualSlot disk opts headers data idx
      else headerSlot disk opts wrapperSource data idx).Follows ((slotPlan disk opts idx).map (·.path opts)) := by
  unfold slotPlan
  split
  · exact follows_textualSlot headers
  · refine (follows_writeFile disk _ _).andThen ?_
    split
    · split
      · exact follows_moduleRegistrationFile
      · exact follows_moduleWrapperFile
    · exact Emitted.follows_nil

theorem follows_registrationFiles :
    (registrationFiles std disk opts wrapperSource cases fixtures mocks).Follows
      ((registrationPlan disk opts).map (·.path opts)) := by
  unfold registrationFiles registrationPlan
  split
  · exact Emitted.follows_nil
  · rw [List.map_flatMap]
    refine (Emitted.follows_check _).andThen ((Emitted.follows_check _).andThen ?_)
    exact Emitted.follows_all fun idx _ => follows_slot _

theorem follows_writeArtifactManifest :
    (writeArtifactManifest disk opts).Follows ((manifestPlan opts).map (·.path opts)) := by
  have hmodule : (writeModuleRegistrationManifest disk opts).Follows
      (if opts.artifactManifestPath = "" ∨ opts.moduleRegistrationOutputs = [] then [] else [opts.artifactManifestPath]) := by
    unfold writeModuleRegistrationManifest
    split
    · exact Emitted.follows_nil
    · exact follows_writeFile disk _ _
  have htextual : (writeTextualHeaderRegistrationManifest disk opts).Follows
      (if opts.artifactManifestPath = "" ∨ opts.textualRegistrationOutputs = [] then [] else [opts.artifactManifestPath]) := by
    unfold writeTextualHeaderRegistrationManifest
    split
    · exact Emitted.follows_nil
    · split
      · exact Emitted.follows_fail _ _
      · exact follows_writeFile disk _ _
  have hboth := hmodule.andThen htextual
  unfold manifestPlan
  by_cases hpath : opts.artifactManifestPath = ""
  · simpa [hpath, writeArtifactManifest] using hboth
  · by_cases hregistrations : opts.moduleRegistrationOutputs = []
    · by_cases houtputs : opts.textualRegistrationOutputs = []
      · simpa [hpath, hregistrations, houtputs, writeArtifactManifest] using hboth
      · simpa [hpath, hregistrations, houtputs, writeArtifactManifest, Artifact.path] using hboth
    · by_cases houtputs : opts.textualRegistrationOutputs = []
      · simpa [hpath, hregistrations, houtputs, writeArtifactManifest, Artifact.path] using hboth
      · simpa [hpath, hregistrations, houtputs, writeArtifactManifest, Artifact.path] using hboth

theorem describe_unplaced {domain : MockOutputDomainPlan} (h : domain ∈ describeMockOutputDomains disk opts) :
    domain.registryPath = "" ∧ domain.implPath = "" := by
  unfold describeMockOutputDomains at h
  split at h
  · cases h
  · split at h
    · cases List.mem_singleton.mp h
      exact ⟨rfl, rfl⟩
    · obtain rfl | h := List.mem_cons.mp h
      · exact ⟨rfl, rfl⟩
      · obtain ⟨name, -, rfl⟩ := List.mem_map.mp h
        exact ⟨rfl, rfl⟩

/-- The files of the mock domains have the paths that the options give, slot by
slot. -/
theorem domain_paths (hlen : opts.mockDomainRegistryOutputs.length = opts.mockDomainImplOutputs.length) :
    (buildMockOutputDomains disk opts).flatMap (fun domain => [domain.registryPath, domain.implPath]) =
      ((List.range (describeMockOutputDomains disk opts).length).flatMap fun idx =>
        [Artifact.slot .mockDomainRegistry idx, .slot .mockDomainImpl idx]).map (·.path opts) := by
  have hempty : ∀ domain ∈ describeMockOutputDomains disk opts, domain.registryPath = "" ∧ domain.implPath = "" :=
    fun domain => describe_unplaced
  unfold buildMockOutputDomains
  rw [List.range_eq_range', List.map_flatMap]
  generalize describeMockOutputDomains disk opts = domains at hempty
  generalize 0 = first
  induction domains generalizing first with
  | nil => rfl
  | cons domain domains ih =>
    obtain ⟨hdomain, hrest⟩ := List.forall_mem_cons.mp hempty
    rw [List.zipIdx_cons, List.map_cons, List.flatMap_cons, ih hrest, List.length_cons, List.range'_succ,
      List.flatMap_cons]
    congr 1
    by_cases hidx : first < opts.mockDomainRegistryOutputs.length
    · have himpl : first < opts.mockDomainImplOutputs.length := hlen ▸ hidx
      simp [hidx, himpl, Artifact.path]
    · have himpl : ¬first < opts.mockDomainImplOutputs.length := hlen ▸ hidx
      simp [hidx, hdomain, Artifact.path, Nat.not_lt.mp himpl]

theorem follows_mockDomainFiles (hlen : opts.mockDomainRegistryOutputs.length = opts.mockDomainImplOutputs.length) :
    (mockDomainFiles disk opts).Follows (((List.range (describeMockOutputDomains disk opts).length).flatMap fun idx =>
        [Artifact.slot .mockDomainRegistry idx, .slot .mockDomainImpl idx]).map (·.path opts)) := by
  rw [← domain_paths hlen, mockDomainFiles]
  generalize (buildMockOutputDomains disk opts).flatMap (fun domain => [domain.registryPath, domain.implPath]) = paths
  induction paths with
  | nil => exact Emitted.follows_nil
  | cons path paths ih => exact (follows_writeFile disk path _).andThen ih

theorem follows_mockFiles (hlen : opts.mockDomainRegistryOutputs.length = opts.mockDomainImplOutputs.length) :
    (mockFiles disk opts renderError mocks).Follows ((mockPlan disk opts).map (·.path opts)) := by
  unfold mockFiles mockPlan
  by_cases hpaths : opts.mockRegistryPath ≠ "" ∧ opts.mockImplPath ≠ ""
  · have hpublic : (if opts.mockPublicHeaderPath = "" then {}
        else writeFile disk opts.mockPublicHeaderPath (.other "mock public header") : Emitted).Follows
        ((if opts.mockPublicHeaderPath = "" then [] else [Artifact.single .mockPublicHeader]).map (·.path opts)) := by
      split
      · exact Emitted.follows_nil
      · exact follows_writeFile disk _ _
    simp only [hpaths, ne_eq, not_false_eq_true, and_self, or_true, not_true, if_true, if_false, List.map_append]
    exact (Emitted.follows_check _).andThen <| (follows_writeFile disk _ _).andThen <|
      (follows_writeFile disk _ _).andThen <| hpublic.andThen (follows_mockDomainFiles hlen)
  · simp only [hpaths, if_false, or_false, not_false_eq_true, if_true]
    split
    · exact Emitted.follows_fail _ _
    · exact Emitted.follows_nil

theorem follows_writeDepfile : (writeDepfile disk opts).Follows ((depfilePlan disk opts).map (·.path opts)) := by
  unfold writeDepfile depfilePlan
  cases hdepfile : opts.depfilePath with
  | none => exact Emitted.follows_nil
  | some path =>
    simp only [Option.getD_some]
    split
    · exact Emitted.follows_nil
    · simpa [Artifact.path, hdepfile] using follows_writeFile disk path _

theorem follows_writeMockAggregateModule :
    (writeMockAggregateModule disk opts moduleNames).Follows
      ((if opts.mockAggregateModulePath = "" then [] else [Artifact.single .mockAggregateModule]).map (·.path opts)) := by
  unfold writeMockAggregateModule
  split
  · exact Emitted.follows_nil
  · split
    · exact Emitted.follows_fail _ _
    · split
      · exact Emitted.follows_fail _ _
      · exact follows_writeFile disk _ _

theorem follows_emit (hlen : opts.mockDomainRegistryOutputs.length = opts.mockDomainImplOutputs.length) :
    (emit std disk opts wrapperSource renderError cases fixtures mocks).Follows
      ((registrationPlan disk opts ++ (manifestPlan opts ++ mockPlan disk opts)).map (·.path opts)) := by
  unfold emit
  split
  · exact Emitted.follows_fail _ _
  · rw [List.map_append, List.map_append]
    exact follows_registrationFiles.andThen (follows_writeArtifactManifest.andThen (follows_mockFiles hlen))

theorem follows_outputPhase (hlen : opts.mockDomainRegistryOutputs.length = opts.mockDomainImplOutputs.length) :
    (outputPhase std disk opts wrapperSource renderError moduleNames cases fixtures mocks).Follows
      ((plannedArtifacts disk opts).map (·.path opts)) := by
  unfold outputPhase plannedArtifacts
  rw [List.map_append]
  refine Emitted.Follows.andThen ?_ ?_
  · split
    · exact Emitted.follows_nil
    · exact follows_writeFile disk _ _
  · split
    · exact follows_writeDepfile
    · split
      · exact Emitted.follows_fail _ _
      · rw [List.map_append, List.map_append]
        exact follows_writeMockAggregateModule.andThen ((follows_emit hlen).andThen follows_writeDepfile)

end

-- ---------------------------------------------------------------------------
-- What the check compares
-- ---------------------------------------------------------------------------

section

variable {std : UnstableSort} {disk : Disk} {opts : CollectorOptions}

theorem slot_owner_inj {start left right : String} {i j : Nat}
    (h : start ++ (toString i ++ (" " ++ left)) = start ++ (toString j ++ (" " ++ right))) : i = j := by
  have hlists := congrArg String.toList h
  simp only [String.toList_append, List.append_cancel_left_eq] at hlists
  rw [show (toString i).toList = Nat.toDigits 10 i from Nat.toList_repr,
    show (toString j).toList = Nat.toDigits 10 j from Nat.toList_repr] at hlists
  exact (Decimal.toDigits_append_inj (c := ' ') (by decide) hlists).1

theorem sourceOwner_inj {i j : Nat} {left right : String}
    (h : sourceOwner opts i left = sourceOwner opts j right) : i = j := by
  have hquote : " '" = " " ++ "'" := by decide +kernel
  unfold sourceOwner at h
  rw [hquote] at h
  simp only [String.append_assoc] at h
  exact slot_owner_inj h

theorem mockDomainOwner_inj {i j : Nat} {left right : String}
    (h : mockDomainOwner opts i left = mockDomainOwner opts j right) : i = j := by
  unfold mockDomainOwner at h
  generalize (if i = 0 then _ else _) = first at h
  generalize (if j = 0 then _ else _) = second at h
  simp only [String.append_assoc] at h
  exact slot_owner_inj h

def slotRoles : List SlotRole :=
  [.tuHeader, .textualRegistration, .moduleWrapper, .moduleRegistration, .mockDomainRegistry, .mockDomainImpl]

def optionRoles : List OptionRole :=
  [.artifactManifest, .mockRegistry, .mockImpl, .mockPublicHeader, .mockAggregateModule, .mockManifest, .depfile]

theorem mem_slotRoles (r : SlotRole) : r ∈ slotRoles := by
  cases r <;> decide

theorem mem_optionRoles (r : OptionRole) : r ∈ optionRoles := by
  cases r <;> decide

theorem Artifact.eq_of_role_owner {a b : Artifact} (hrole : a.role = b.role) (howner : a.owner opts = b.owner opts) :
    a = b := by
  have hslots : ∀ r ∈ slotRoles, ∀ s ∈ slotRoles, r.name = s.name → r = s := by decide +kernel
  have hsingles : ∀ r ∈ optionRoles, ∀ s ∈ optionRoles, r.name = s.name → r = s := by decide +kernel
  have hapart : ∀ r ∈ slotRoles, ∀ s ∈ optionRoles, r.name ≠ s.name := by decide +kernel
  cases a with
  | slot r i =>
    cases b with
    | slot s j =>
      cases hslots r (mem_slotRoles r) s (mem_slotRoles s) hrole
      cases r with
      | tuHeader => rw [sourceOwner_inj howner]
      | textualRegistration => rw [sourceOwner_inj howner]
      | moduleWrapper => rw [sourceOwner_inj howner]
      | moduleRegistration => rw [sourceOwner_inj howner]
      | mockDomainRegistry => rw [mockDomainOwner_inj howner]
      | mockDomainImpl => rw [mockDomainOwner_inj howner]
    | single s => exact absurd hrole (hapart r (mem_slotRoles r) s (mem_optionRoles s))
  | single r =>
    cases b with
    | slot s j => exact absurd hrole.symm (hapart s (mem_slotRoles s) r (mem_optionRoles r))
    | single s => rw [hsingles r (mem_optionRoles r) s (mem_optionRoles s) hrole]

def Artifact.owned (disk : Disk) (opts : CollectorOptions) (a : Artifact) : OwnedPath :=
  ⟨disk.casefoldedPathKey (a.path opts), a.role, a.owner opts⟩

theorem addArtifact_mapM {artifacts : List Artifact} {owned : List OwnedPath}
    (h : artifacts.mapM (addArtifact disk opts) = .ok owned) : owned = artifacts.map (Artifact.owned disk opts) := by
  refine (List.forall₂_eq_eq_eq ▸ List.forall₂_map_left_iff.mpr ((mapM_ok.mp h).imp ?_)).symm
  intro a path hadd
  unfold addArtifact at hadd
  split at hadd
  · cases hadd
  · cases hadd
    rfl

theorem ensure_ok {condition : Bool} {error : String} {u : Unit} :
    ensure condition error = .ok u ↔ condition = true := by
  cases condition with
  | false => exact ⟨fun h => (by cases h), fun h => (by cases h)⟩
  | true => exact ⟨fun _ => rfl, fun _ => rfl⟩

theorem refuse_ok {error : Option String} {u : Unit} : refuse error = .ok u ↔ error = none := by
  cases error with
  | none => exact ⟨fun _ => rfl, fun _ => rfl⟩
  | some error => exact ⟨fun h => (nomatch h), fun h => (nomatch h)⟩

theorem validateSourceAlignment_ok {paths : List String} {option : String} {u : Unit} :
    validateSourceAlignment opts paths option = .ok u ↔ paths = [] ∨ paths.length = opts.sources.length := by
  unfold validateSourceAlignment
  split
  · exact ⟨fun _ => by assumption, fun _ => rfl⟩
  · exact ⟨fun h => (nomatch h), fun h => absurd h (by assumption)⟩

def checkedArtifacts (disk : Disk) (opts : CollectorOptions) : List Artifact :=
  headerArtifacts opts ++ textualArtifacts opts ++ wrapperArtifacts disk opts ++ registrationArtifacts opts ++
    optionArtifacts opts ++ domainArtifacts opts

/-- What acceptance says. -/
structure Accepted (std : UnstableSort) (disk : Disk) (opts : CollectorOptions) : Prop where
  textual : opts.textualRegistrationOutputs = [] ∨ opts.textualRegistrationOutputs.length = opts.sources.length
  registrations : opts.moduleRegistrationOutputs = [] ∨ opts.moduleRegistrationOutputs.length = opts.sources.length
  domains : opts.mockDomainRegistryOutputs.length = opts.mockDomainImplOutputs.length
  inputs : inputConflict (std.sort OwnedPath.less (reservedInputs disk opts))
    ((checkedArtifacts disk opts).map (Artifact.owned disk opts)) = none
  outputs : collision (std.sort OwnedPath.less ((checkedArtifacts disk opts).map (Artifact.owned disk opts))) = none
  dir : opts.moduleRegistrationOutputs ≠ [] → opts.tuOutputDir ≠ ""

theorem accepted_of_validate (h : validateGeneratedArtifactOutputs disk opts std = .ok ()) : Accepted std disk opts := by
  unfold validateGeneratedArtifactOutputs at h
  simp only [bind_ok, ensure_ok, refuse_ok, validateSourceAlignment_ok] at h
  obtain ⟨_, hdir, _, -, _, htextual, _, -, _, hregistrations, headers, hheaders, texts, htexts, _, -, wrappers, hwrappers,
    imports, himports, options, hoptions, _, hdomains, domains, hfiles, _, hinputs, houtputs⟩ := h
  have hall : headers ++ texts ++ wrappers ++ imports ++ options ++ domains =
      (checkedArtifacts disk opts).map (Artifact.owned disk opts) := by
    rw [addArtifact_mapM hheaders, addArtifact_mapM htexts, addArtifact_mapM hwrappers, addArtifact_mapM himports,
      addArtifact_mapM hoptions, addArtifact_mapM hfiles]
    simp only [checkedArtifacts, List.map_append]
  rw [hall] at hinputs houtputs
  refine ⟨htextual, hregistrations, by simpa using hdomains, hinputs, houtputs, ?_⟩
  rintro hne hempty
  simp [hempty, hne] at hdir

theorem less_total (p q : OwnedPath) : p.less q = false ∨ q.less p = false := by
  simp only [OwnedPath.less, decide_eq_false_iff_not, not_lt]
  exact le_total q.lexKey p.lexKey

theorem less_trans (p q r : OwnedPath) (hqp : q.less p = false) (hrq : r.less q = false) : r.less p = false := by
  simp only [OwnedPath.less, decide_eq_false_iff_not, not_lt] at hqp hrq ⊢
  exact hqp.trans hrq

theorem canonicalPath_le {p q : OwnedPath} (h : q.less p = false) : p.canonicalPath ≤ q.canonicalPath := by
  simp only [OwnedPath.less, decide_eq_false_iff_not, not_lt] at h
  exact (Prod.Lex.le_iff.mp h).elim le_of_lt fun heq => le_of_eq heq.1

/-- In a list sorted by path, with no two entries of one role and owner, no two
paths are equal. -/
theorem collision_none {l : List OwnedPath} (hnone : collision l = none)
    (hsorted : l.Pairwise fun p q => p.canonicalPath ≤ q.canonicalPath)
    (howners : l.Pairwise fun p q => ¬(p.role = q.role ∧ p.owner = q.owner)) :
    (l.map OwnedPath.canonicalPath).Nodup := by
  induction l with
  | nil => exact List.nodup_nil
  | cons p l ih =>
    obtain ⟨hp, hsorted⟩ := List.pairwise_cons.mp hsorted
    obtain ⟨hpo, howners⟩ := List.pairwise_cons.mp howners
    cases l with
    | nil => simp
    | cons q l =>
      unfold collision at hnone
      split at hnone
      · rename_i hcontinue
        have hne : p.canonicalPath ≠ q.canonicalPath :=
          hcontinue.resolve_right (hpo q (List.mem_cons_self ..))
        have hlt : p.canonicalPath < q.canonicalPath := lt_of_le_of_ne (hp q (List.mem_cons_self ..)) hne
        refine List.nodup_cons.mpr ⟨?_, ih hnone hsorted howners⟩
        intro hmem
        obtain ⟨r, hr, hpath⟩ := List.mem_map.mp hmem
        have hqr : q.canonicalPath ≤ r.canonicalPath := by
          obtain rfl | hr := List.mem_cons.mp hr
          · exact le_refl _
          · exact (List.pairwise_cons.mp hsorted).1 r hr
        exact absurd hpath (ne_of_gt (hlt.trans_le hqr))
      · cases hnone

theorem nodup_slots (role : SlotRole) (n : Nat) : ((List.range n).map (Artifact.slot role)).Nodup :=
  List.nodup_range.map fun _ _ h => (Artifact.slot.inj h).2

theorem nodup_domains (n : Nat) :
    ((List.range n).flatMap fun idx => [Artifact.slot .mockDomainRegistry idx, .slot .mockDomainImpl idx]).Nodup := by
  refine List.nodup_flatMap.mpr ⟨fun idx _ => by simp, List.nodup_range.imp ?_⟩
  intro i j hne a hi hj
  simp only [List.mem_cons, List.not_mem_nil, or_false] at hi hj
  obtain rfl | rfl := hi
  · obtain h | h := hj
    · exact hne (Artifact.slot.inj h).2
    · cases h
  · obtain h | h := hj
    · cases h
    · exact hne (Artifact.slot.inj h).2

/-- The list of artifacts that an artifact is on. -/
def Artifact.group : Artifact → Nat
  | .slot .tuHeader _ => 0
  | .slot .textualRegistration _ => 1
  | .slot .moduleWrapper _ => 2
  | .slot .moduleRegistration _ => 3
  | .single _ => 4
  | .slot .mockDomainRegistry _ => 5
  | .slot .mockDomainImpl _ => 5

theorem nodup_append_group {group : Artifact → Nat} {l m : List Artifact} {k : Nat}
    (hl : l.Nodup ∧ ∀ a ∈ l, group a < k) (hm : m.Nodup) (hgroup : ∀ a ∈ m, group a = k) :
    (l ++ m).Nodup ∧ ∀ a ∈ l ++ m, group a < k + 1 := by
  refine ⟨List.nodup_append'.mpr ⟨hl.1, hm, ?_⟩, ?_⟩
  · intro a hal ham
    have hlt := hl.2 a hal
    rw [hgroup a ham] at hlt
    exact Nat.lt_irrefl k hlt
  · intro a ha
    obtain hal | ham := List.mem_append.mp ha
    · exact Nat.lt_succ_of_lt (hl.2 a hal)
    · exact hgroup a ham ▸ Nat.lt_succ_self k

theorem checkedArtifacts_nodup : (checkedArtifacts disk opts).Nodup := by
  have hslots : ∀ {role : SlotRole} {idxs : List Nat} {k : Nat}, (Artifact.slot role 0).group = k →
      ∀ a ∈ idxs.map (Artifact.slot role), a.group = k := by
    intro role idxs k hk a ha
    obtain ⟨idx, -, rfl⟩ := List.mem_map.mp ha
    cases role <;> exact hk
  have hheaders : (headerArtifacts opts).Nodup ∧ ∀ a ∈ headerArtifacts opts, a.group < 1 := by
    unfold headerArtifacts
    split
    · exact ⟨nodup_slots .tuHeader _, fun a ha => by rw [hslots rfl a ha]; exact Nat.zero_lt_one⟩
    · exact ⟨List.nodup_nil, fun a ha => by cases ha⟩
  have hwrappers : (wrapperArtifacts disk opts).Nodup :=
    (List.nodup_range.filter _).map fun _ _ h => (Artifact.slot.inj h).2
  have hoptions : (optionArtifacts opts).Nodup := by
    refine List.Nodup.filter _ ?_
    decide
  have hsingle : ∀ a ∈ optionArtifacts opts, a.group = 4 := by
    intro a ha
    obtain ⟨role, -, rfl⟩ := List.mem_map.mp (List.mem_filter.mp ha).1
    rfl
  have hdomain : ∀ a ∈ domainArtifacts opts, a.group = 5 := by
    intro a ha
    obtain ⟨idx, -, ha⟩ := List.mem_flatMap.mp ha
    simp only [List.mem_cons, List.not_mem_nil, or_false] at ha
    obtain rfl | rfl := ha
    · rfl
    · rfl
  have htexts : (textualArtifacts opts).Nodup := nodup_slots ..
  have hregistrations : (registrationArtifacts opts).Nodup := nodup_slots ..
  have htextual := nodup_append_group hheaders htexts (hslots rfl)
  have hwrapped := nodup_append_group htextual hwrappers (hslots rfl)
  have hregistered := nodup_append_group hwrapped hregistrations (hslots rfl)
  have hsingles := nodup_append_group hregistered hoptions hsingle
  exact (nodup_append_group hsingles (nodup_domains _) hdomain).1

theorem Accepted.keys_nodup (h : Accepted std disk opts) :
    ((checkedArtifacts disk opts).map fun a => disk.casefoldedPathKey (a.path opts)).Nodup := by
  have hperm := std.perm OwnedPath.less ((checkedArtifacts disk opts).map (Artifact.owned disk opts))
  have howners : ((checkedArtifacts disk opts).map (Artifact.owned disk opts)).Pairwise
      fun p q => ¬(p.role = q.role ∧ p.owner = q.owner) := by
    refine List.pairwise_map.mpr (checkedArtifacts_nodup.imp ?_)
    rintro a b hne ⟨hrole, howner⟩
    exact hne (Artifact.eq_of_role_owner hrole howner)
  have hsorted := (std.sorted OwnedPath.less ((checkedArtifacts disk opts).map (Artifact.owned disk opts)) less_trans
    less_total).imp canonicalPath_le
  have hsymm : ∀ {p q : OwnedPath}, ¬(p.role = q.role ∧ p.owner = q.owner) → ¬(q.role = p.role ∧ q.owner = p.owner) :=
    fun h hqp => h ⟨hqp.1.symm, hqp.2.symm⟩
  have hnodup := collision_none h.outputs hsorted ((hperm.pairwise_iff hsymm).mpr howners)
  have hall := (hperm.map OwnedPath.canonicalPath).nodup_iff.mp hnodup
  rwa [List.map_map] at hall

theorem Accepted.input_ne (h : Accepted std disk opts) {a : Artifact} (ha : a ∈ checkedArtifacts disk opts)
    {input : OwnedPath} (hinput : input ∈ reservedInputs disk opts) :
    disk.casefoldedPathKey (a.path opts) ≠ input.canonicalPath := by
  intro heq
  have hnone := List.findSome?_eq_none_iff.mp h.inputs (a.owned disk opts) (List.mem_map_of_mem ha)
  rw [Option.map_eq_none_iff, List.find?_eq_none] at hnone
  refine hnone input ((std.mem_sort).mpr hinput) ?_
  exact decide_eq_true heq.symm

-- ---------------------------------------------------------------------------
-- The plan is checked
-- ---------------------------------------------------------------------------

theorem mem_optionArtifacts {role : OptionRole} (h : (Artifact.single role).path opts ≠ "") :
    .single role ∈ optionArtifacts opts := by
  refine List.mem_filter.mpr ⟨List.mem_map_of_mem ?_, decide_eq_true h⟩
  cases role <;> decide

theorem mem_domainArtifacts (h : Accepted std disk opts) {a : Artifact} {idx : Nat}
    (ha : a = .slot .mockDomainRegistry idx ∨ a = .slot .mockDomainImpl idx) (hpath : a.path opts ≠ "") :
    a ∈ domainArtifacts opts := by
  have hidx : idx < opts.mockDomainRegistryOutputs.length := by
    by_contra hge
    have himpl : ¬idx < opts.mockDomainImplOutputs.length := h.domains ▸ hge
    obtain rfl | rfl := ha
    · simp [Artifact.path, Nat.not_lt.mp hge] at hpath
    · simp [Artifact.path, Nat.not_lt.mp himpl] at hpath
  exact List.mem_flatMap.mpr ⟨idx, List.mem_range.mpr hidx, by simpa using ha⟩

theorem mem_checked_slotPlan (h : Accepted std disk opts) {idx : Nat} (hidx : idx < opts.sources.length)
    (hdir : opts.tuOutputDir ≠ "") {a : Artifact} (ha : a ∈ slotPlan disk opts idx) (hpath : a.path opts ≠ "") :
    a ∈ headerArtifacts opts ++ textualArtifacts opts ++ wrapperArtifacts disk opts ++ registrationArtifacts opts := by
  unfold slotPlan at ha
  split at ha
  · rename_i htextual
    cases List.mem_singleton.mp ha
    have hlen := h.textual.resolve_left htextual
    have hmem : Artifact.slot .textualRegistration idx ∈ textualArtifacts opts :=
      List.mem_map_of_mem (List.mem_range.mpr (hlen ▸ hidx))
    simp [hmem]
  · rename_i htextual
    rw [not_not] at htextual
    obtain rfl | ha := List.mem_cons.mp ha
    · have hmem : Artifact.slot .tuHeader idx ∈ headerArtifacts opts := by
        rw [headerArtifacts, if_pos ⟨hdir, htextual⟩]
        exact List.mem_map_of_mem (List.mem_range.mpr hidx)
      simp [hmem]
    · split at ha
      · rename_i hmodule
        split at ha
        · rename_i hregistrations
          cases List.mem_singleton.mp ha
          have hlen := h.registrations.resolve_left hregistrations
          have hmem : Artifact.slot .moduleRegistration idx ∈ registrationArtifacts opts :=
            List.mem_map_of_mem (List.mem_range.mpr (hlen ▸ hidx))
          simp [hmem]
        · cases List.mem_singleton.mp ha
          have hwrapper : idx < opts.moduleWrapperOutputs.length := by
            by_contra hge
            simp [Artifact.path, Nat.not_lt.mp hge] at hpath
          have hmem : Artifact.slot .moduleWrapper idx ∈ wrapperArtifacts disk opts := by
            refine List.mem_map_of_mem (List.mem_filter.mpr ⟨List.mem_range.mpr hwrapper, ?_⟩)
            simp [hmodule, hpath]
          simp [hmem]
      · cases ha

theorem planned_cases {a : Artifact} (ha : a ∈ plannedArtifacts disk opts) :
    (∃ role, a = .single role) ∨ (∃ idx, a = .slot .mockDomainRegistry idx ∨ a = .slot .mockDomainImpl idx) ∨
      (opts.tuOutputDir ≠ "" ∧ ∃ idx < opts.sources.length, a ∈ slotPlan disk opts idx) := by
  have hone : ∀ {p : Prop} [Decidable p] {role : OptionRole}, a ∈ (if p then [] else [Artifact.single role]) →
      ∃ role, a = .single role := by
    intro p _ role h
    split at h
    · cases h
    · exact ⟨role, List.mem_singleton.mp h⟩
  have hdepfile : a ∈ depfilePlan disk opts → ∃ role, a = .single role := hone
  unfold plannedArtifacts at ha
  obtain ha | ha := List.mem_append.mp ha
  · exact .inl (hone ha)
  · split at ha
    · exact .inl (hdepfile ha)
    · simp only [List.mem_append] at ha
      obtain ha | (ha | ha | ha) | ha := ha
      · exact .inl (hone ha)
      · unfold registrationPlan at ha
        split at ha
        · cases ha
        · obtain ⟨idx, hidx, ha⟩ := List.mem_flatMap.mp ha
          exact .inr (.inr ⟨by assumption, idx, List.mem_range.mp hidx, ha⟩)
      · unfold manifestPlan at ha
        split at ha
        · cases ha
        · exact .inl ((List.mem_append.mp ha).elim hone hone)
      · unfold mockPlan at ha
        split at ha
        · simp only [List.mem_append, List.mem_cons, List.not_mem_nil, or_false] at ha
          obtain (ha | ha) | ha := ha
          · exact .inl (ha.elim (⟨_, ·⟩) (⟨_, ·⟩))
          · exact .inl (hone ha)
          · obtain ⟨idx, -, ha⟩ := List.mem_flatMap.mp ha
            exact .inr (.inl ⟨idx, by simpa using ha⟩)
        · cases ha
      · exact .inl (hdepfile ha)

theorem planned_checked (h : Accepted std disk opts) {a : Artifact} (ha : a ∈ plannedArtifacts disk opts)
    (hpath : a.path opts ≠ "") : a ∈ checkedArtifacts disk opts := by
  unfold checkedArtifacts
  obtain ⟨role, rfl⟩ | ⟨idx, ha⟩ | ⟨hdir, idx, hidx, ha⟩ := planned_cases ha
  · exact List.mem_append_left _ (List.mem_append_right _ (mem_optionArtifacts hpath))
  · exact List.mem_append_right _ (mem_domainArtifacts h ha hpath)
  · exact List.mem_append_left _ (List.mem_append_left _ (mem_checked_slotPlan h hidx hdir ha hpath))

/-- When the planned outputs are written, in order. -/
def Artifact.stage : Artifact → Nat
  | .single .mockManifest => 0
  | .single .mockAggregateModule => 1
  | .slot .mockDomainRegistry _ => 5
  | .slot .mockDomainImpl _ => 5
  | .slot _ _ => 2
  | .single .artifactManifest => 3
  | .single .depfile => 6
  | .single _ => 4

theorem nodup_slotPlan (idx : Nat) : (slotPlan disk opts idx).Nodup := by
  unfold slotPlan
  split
  · exact List.nodup_singleton _
  · split
    · split
      · simp
      · simp
    · exact List.nodup_singleton _

theorem slotPlan_cases {idx : Nat} {a : Artifact} (ha : a ∈ slotPlan disk opts idx) :
    ∃ role, a = .slot role idx ∧ a.stage = 2 := by
  unfold slotPlan at ha
  split at ha
  · cases List.mem_singleton.mp ha
    exact ⟨_, rfl, rfl⟩
  · obtain rfl | ha := List.mem_cons.mp ha
    · exact ⟨_, rfl, rfl⟩
    · split at ha
      · split at ha
        · cases List.mem_singleton.mp ha
          exact ⟨_, rfl, rfl⟩
        · cases List.mem_singleton.mp ha
          exact ⟨_, rfl, rfl⟩
      · cases ha

/-- Different artifacts of one stage. -/
structure Staged (k : Nat) (l : List Artifact) : Prop where
  nodup : l.Nodup
  stage : ∀ a ∈ l, a.stage = k

theorem staged_nil (k : Nat) : Staged k [] := ⟨List.nodup_nil, fun _ ha => (nomatch ha)⟩

theorem staged_single (role : OptionRole) : Staged (Artifact.single role).stage [.single role] :=
  ⟨List.nodup_singleton _, fun _ ha => List.mem_singleton.mp ha ▸ rfl⟩

theorem staged_option (p : Prop) [Decidable p] (role : OptionRole) :
    Staged (Artifact.single role).stage (if p then [] else [.single role]) := by
  split
  · exact staged_nil _
  · exact staged_single role

theorem staged_registrationPlan : Staged 2 (registrationPlan disk opts) := by
  unfold registrationPlan
  split
  · exact staged_nil 2
  · refine ⟨List.nodup_flatMap.mpr ⟨fun idx _ => nodup_slotPlan idx, List.nodup_range.imp ?_⟩, ?_⟩
    · intro i j hne a hi hj
      obtain ⟨_, rfl, -⟩ := slotPlan_cases hi
      obtain ⟨_, h, -⟩ := slotPlan_cases hj
      exact hne (Artifact.slot.inj h).2
    · intro a ha
      obtain ⟨idx, -, ha⟩ := List.mem_flatMap.mp ha
      obtain ⟨_, -, hstage⟩ := slotPlan_cases ha
      exact hstage

theorem staged_mockPlan : ∃ first second, mockPlan disk opts = first ++ second ∧ Staged 4 first ∧ Staged 5 second := by
  unfold mockPlan
  split
  · refine ⟨_, _, rfl, ⟨?_, ?_⟩, nodup_domains _, ?_⟩
    · split
      · decide
      · decide
    · split
      · decide
      · decide
    · intro a ha
      obtain ⟨idx, -, ha⟩ := List.mem_flatMap.mp ha
      simp only [List.mem_cons, List.not_mem_nil, or_false] at ha
      obtain rfl | rfl := ha
      · rfl
      · rfl
  · exact ⟨[], [], rfl, staged_nil 4, staged_nil 5⟩

/-- The manifests of both kinds of registration go to one path. -/
def ManifestTwice (opts : CollectorOptions) : Prop :=
  opts.artifactManifestPath ≠ "" ∧ opts.moduleRegistrationOutputs ≠ [] ∧ opts.textualRegistrationOutputs ≠ []

theorem staged_manifestPlan (h : ¬ManifestTwice opts) : Staged 3 (manifestPlan opts) := by
  unfold manifestPlan
  split
  · exact staged_nil 3
  · rename_i hpath
    by_cases hmodule : opts.moduleRegistrationOutputs = []
    · rw [if_pos hmodule, List.nil_append]
      exact staged_option _ .artifactManifest
    · have htextual : opts.textualRegistrationOutputs = [] := by
        by_contra htextual
        exact h ⟨hpath, hmodule, htextual⟩
      rw [if_pos htextual, List.append_nil]
      exact staged_option _ .artifactManifest

theorem Staged.append {l m : List Artifact} {k : Nat} (hm : Staged k m) (hl : l.Nodup ∧ ∀ a ∈ l, a.stage < k) :
    (l ++ m).Nodup ∧ ∀ a ∈ l ++ m, a.stage < k + 1 :=
  nodup_append_group hl hm.nodup hm.stage

theorem nodup_plannedArtifacts (h : ¬ManifestTwice opts) : (plannedArtifacts disk opts).Nodup := by
  have hdepfile : Staged 6 (depfilePlan disk opts) := staged_option _ .depfile
  have hstart : ([] : List Artifact).Nodup ∧ ∀ a ∈ ([] : List Artifact), a.stage < 0 :=
    ⟨List.nodup_nil, fun _ ha => (nomatch ha)⟩
  have hfound := (staged_option (opts.mockManifestOutputPath = "") .mockManifest).append hstart
  rw [List.nil_append] at hfound
  unfold plannedArtifacts
  by_cases hdiscovery : opts.mockManifestDiscoveryOnly = true
  · rw [if_pos hdiscovery]
    have hlater := fun a ha => Nat.lt_of_lt_of_le (hfound.2 a ha) (by decide : 0 + 1 ≤ 6)
    exact (hdepfile.append ⟨hfound.1, hlater⟩).1
  · rw [if_neg hdiscovery]
    obtain ⟨first, second, hmocks, hfirst, hsecond⟩ := @staged_mockPlan disk opts
    have haggregate := (staged_option (opts.mockAggregateModulePath = "") .mockAggregateModule).append hfound
    have hregistrations : Staged 2 (registrationPlan disk opts) := staged_registrationPlan
    have hmanifest := (staged_manifestPlan h).append (hregistrations.append haggregate)
    have hall := hdepfile.append (hsecond.append (hfirst.append hmanifest))
    rw [hmocks]
    simpa only [List.append_assoc] using hall.1

-- ---------------------------------------------------------------------------
-- Kept apart
-- ---------------------------------------------------------------------------

def inputPaths (opts : CollectorOptions) : List String :=
  (opts.sources ++ [opts.mockManifestInputPath, opts.mockRegistrationManifestPath] ++
    opts.explicitModuleSourcesByName.flatMap Prod.snd).filter (· ≠ "")

structure KeptApart (disk : Disk) (opts : CollectorOptions) (written : List String) : Prop where
  distinct : (written.map disk.casefoldedPathKey).Nodup
  inputs : ∀ path ∈ written, ∀ input ∈ inputPaths opts, disk.casefoldedPathKey path ≠ disk.casefoldedPathKey input

/-- The mock registration manifest, if there is one, is not a planned output. -/
def ManifestUntouched (disk : Disk) (opts : CollectorOptions) : Prop :=
  opts.mockRegistrationManifestPath ≠ "" → ∀ a ∈ plannedArtifacts disk opts, a.path opts ≠ "" →
    disk.casefoldedPathKey (a.path opts) ≠ disk.casefoldedPathKey opts.mockRegistrationManifestPath

/-- Every input but the mock registration manifest is reserved. -/
theorem reserved_of_input (disk : Disk) {input : String} (h : input ∈ inputPaths opts)
    (hne : input ≠ opts.mockRegistrationManifestPath) :
    ∃ reserved ∈ reservedInputs disk opts, reserved.canonicalPath = disk.casefoldedPathKey input := by
  simp only [inputPaths, List.mem_filter, List.mem_append, List.mem_cons, List.not_mem_nil, or_false, hne,
    decide_eq_true_eq, List.mem_flatMap] at h
  obtain ⟨hmem, hnamed⟩ := h
  have hknown : ∃ role owner, (input, role, owner) ∈ knownInputs opts := by
    obtain (hsource | rfl) | ⟨entry, hentry, hpath⟩ := hmem
    · obtain ⟨idx, hidx⟩ := List.mem_iff_getElem?.mp hsource
      have hzip := List.mem_map_of_mem
        (f := fun s : String × Nat => (s.1, "input source", "source slot " ++ toString s.2 ++ " '" ++ s.1 ++ "'"))
        (List.mem_zipIdx_iff_getElem?.mpr hidx : (input, idx) ∈ opts.sources.zipIdx)
      exact ⟨_, _, List.mem_append_left _ (List.mem_append_left _ hzip)⟩
    · exact ⟨_, _, List.mem_append_left _ (List.mem_append_right _ (List.mem_singleton.mpr rfl))⟩
    · exact ⟨_, _, List.mem_append_right _ (List.mem_flatMap.mpr ⟨entry, hentry, List.mem_map.mpr ⟨input, hpath, rfl⟩⟩)⟩
  obtain ⟨role, owner, hknown⟩ := hknown
  refine ⟨⟨disk.casefoldedPathKey input, role, owner⟩, ?_, rfl⟩
  exact List.mem_filterMap.mpr ⟨(input, role, owner), hknown, by simp [hnamed]⟩

/-- What follows the plan of accepted options is kept apart from each other and
from the inputs, if the manifests are. -/
theorem keptApart_of_follows (h : Accepted std disk opts) (honce : ¬ManifestTwice opts)
    (hmanifest : ManifestUntouched disk opts) {o : Emitted}
    (hfollows : o.Follows ((plannedArtifacts disk opts).map (·.path opts))) : KeptApart disk opts o.paths := by
  have hnamed : o.paths.Sublist (((plannedArtifacts disk opts).filter fun a => a.path opts ≠ "").map (·.path opts)) := by
    have hfilter := hfollows.part.filter fun path => path ≠ ""
    rw [List.filter_eq_self.mpr fun path hpath => decide_eq_true (hfollows.named path hpath), List.filter_map] at hfilter
    exact hfilter
  refine ⟨?_, ?_⟩
  · refine List.Nodup.sublist (hnamed.map disk.casefoldedPathKey) ?_
    rw [List.map_map]
    refine List.Nodup.map_on ?_ ((nodup_plannedArtifacts honce).filter _)
    intro a ha b hb hkey
    simp only [List.mem_filter, decide_eq_true_eq] at ha hb
    exact List.inj_on_of_nodup_map h.keys_nodup (planned_checked h ha.1 ha.2) (planned_checked h hb.1 hb.2) hkey
  · intro path hpath input hinput
    obtain ⟨a, ha, rfl⟩ := List.mem_map.mp (hnamed.subset hpath)
    simp only [List.mem_filter, decide_eq_true_eq] at ha
    by_cases hregistration : input = opts.mockRegistrationManifestPath
    · subst hregistration
      exact hmanifest (of_decide_eq_true (List.mem_filter.mp hinput).2) a ha.1 ha.2
    · obtain ⟨reserved, hreserved, hkey⟩ := reserved_of_input disk hinput hregistration
      rw [← hkey]
      exact h.input_ne (planned_checked h ha.1 ha.2) hreserved

/-- Two manifests in the plan make their path stand there twice. -/
theorem manifest_sublist (h : Accepted std disk opts) (htwice : ManifestTwice opts) :
    [Artifact.single .artifactManifest, .single .artifactManifest].Sublist (plannedArtifacts disk opts) := by
  obtain ⟨hpath, hmodule, htextual⟩ := htwice
  have hplan : manifestPlan opts = [.single .artifactManifest, .single .artifactManifest] := by
    simp [manifestPlan, hpath, hmodule, htextual]
  have hdiscovery : ¬opts.mockManifestDiscoveryOnly = true := by
    simp [CollectorOptions.mockManifestDiscoveryOnly, h.dir hmodule]
  unfold plannedArtifacts
  rw [if_neg hdiscovery, hplan]
  refine List.Sublist.trans ?_ (List.sublist_append_right ..)
  refine List.Sublist.trans ?_ (List.sublist_append_right ..)
  refine List.Sublist.trans ?_ (List.sublist_append_left ..)
  refine List.Sublist.trans ?_ (List.sublist_append_right ..)
  exact List.sublist_append_left ..

/-- Under accepted options no output takes the place of another output or of an
input, as long as only one kind of manifest is written and the mock registration
manifest is not an output; and where all is written, only then. -/
theorem outputs_kept_apart_iff (std : UnstableSort) (disk : Disk) (opts : CollectorOptions)
    (wrapperSource : String → PerSourceEmitData → Option String) (renderError : List MockClassInfo → Option String)
    (moduleNames : List String) (cases : List TestCaseInfo) (fixtures : List FixtureDeclInfo)
    (mocks : List MockClassInfo) (h : validateGeneratedArtifactOutputs disk opts std = .ok ()) :
    let run := outputPhase std disk opts wrapperSource renderError moduleNames cases fixtures mocks
    (¬ManifestTwice opts ∧ ManifestUntouched disk opts → KeptApart disk opts run.paths) ∧
      (run.errors = [] → (KeptApart disk opts run.paths ↔ ¬ManifestTwice opts ∧ ManifestUntouched disk opts)) := by
  intro run
  have haccepted := accepted_of_validate h
  have hfollows : run.Follows ((plannedArtifacts disk opts).map (·.path opts)) :=
    follows_outputPhase haccepted.domains
  have henough : ¬ManifestTwice opts ∧ ManifestUntouched disk opts → KeptApart disk opts run.paths :=
    fun hcond => keptApart_of_follows haccepted hcond.1 hcond.2 hfollows
  refine ⟨henough, fun hok => ⟨fun hkept => ⟨?_, ?_⟩, henough⟩⟩
  · intro htwice
    have hkeys := (manifest_sublist haccepted htwice).map fun a => disk.casefoldedPathKey (a.path opts)
    have hnodup := hkept.distinct
    rw [hfollows.all hok, List.map_map] at hnodup
    have hpair := hnodup.sublist hkeys
    simp at hpair
  · intro hnamed a ha hpath
    refine hkept.inputs (a.path opts) ?_ opts.mockRegistrationManifestPath ?_
    · rw [hfollows.all hok]
      exact List.mem_map_of_mem ha
    · simp [inputPaths, hnamed]

/-- A disk without links on which every named file can be written. -/
def plainDisk : Disk where
  normalizePathKey path := path
  namedModuleNameFromSourceFile _ := none
  relativeToRoot _ _ := none
  dirError _ := none
  writeError path := if path = "" then some "no path" else none
  emptyPath := by decide

/-- A module registered by an importer, with the given manifests. -/
def importerOptions (artifactManifest registrationManifest : String) : CollectorOptions where
  tuOutputDir := "out"
  moduleRegistrationOutputs := ["out/m.reg.cpp"]
  artifactManifestPath := artifactManifest
  mockRegistrationManifestPath := registrationManifest
  sources := ["m.cppm"]
  moduleInterfaceNamesBySource := [("m.cppm", "m")]
  moduleInterfaceSources := ["m.cppm"]

theorem importer_outputs_kept_apart :
    validateGeneratedArtifactOutputs plainDisk (importerOptions "out/m.json" "mocks.json") insertion = .ok () ∧
      KeptApart plainDisk (importerOptions "out/m.json" "mocks.json")
        (outputPhase insertion plainDisk (importerOptions "out/m.json" "mocks.json") (fun _ _ => none) (fun _ => none)
          [] [] [] []).paths := by
  have haccepted : validateGeneratedArtifactOutputs plainDisk (importerOptions "out/m.json" "mocks.json") insertion =
      .ok () := by decide +kernel
  have honce : ¬ManifestTwice (importerOptions "out/m.json" "mocks.json") := fun h => h.2.2 rfl
  have huntouched : ∀ a ∈ plannedArtifacts plainDisk (importerOptions "out/m.json" "mocks.json"),
      plainDisk.casefoldedPathKey (a.path (importerOptions "out/m.json" "mocks.json")) ≠
        plainDisk.casefoldedPathKey "mocks.json" := by decide +kernel
  exact ⟨haccepted, (outputs_kept_apart_iff insertion plainDisk _ _ _ [] [] [] [] haccepted).1
    ⟨honce, fun _ a ha _ => huntouched a ha⟩⟩

/-- The artifact manifest replaces the mock registration manifest that was read. -/
theorem registration_manifest_overwritten :
    validateGeneratedArtifactOutputs plainDisk (importerOptions "mocks.json" "mocks.json") insertion = .ok () ∧
      ¬KeptApart plainDisk (importerOptions "mocks.json" "mocks.json")
        (outputPhase insertion plainDisk (importerOptions "mocks.json" "mocks.json") (fun _ _ => none) (fun _ => none)
          [] [] [] []).paths := by
  refine ⟨by decide +kernel, fun hkept => ?_⟩
  exact hkept.inputs "mocks.json" (by decide +kernel) "mocks.json" (by decide +kernel) rfl

end

end Gentest.Codegen
