import Gentest.Codegen.OutputsApart
import Gentest.Lib.Grouping
import Mathlib.Data.List.Perm.Basic

/-!
# Where a case is registered

A slot registers every case whose translation unit has the slot's canonical path.
The slots' files are not overwritten, so a case is registered once for each slot
that names its file.
-/

namespace Gentest.Codegen

open Sorting

-- ---------------------------------------------------------------------------
-- Files that remain
-- ---------------------------------------------------------------------------

def FileText.caseArray : FileText → List TestCaseInfo
  | .registration _ _ cases _ => cases
  | _ => []

def FileText.sharedFixtures : FileText → List FixtureDeclInfo
  | .registration _ _ _ fixtures => fixtures
  | _ => []

/-- The namespace of a file's registrations and the stem of its registrar's name. -/
def FileText.registrar : FileText → Option String
  | .registration registerFn _ _ _ => some registerFn
  | _ => none

/-- A file takes the place of an earlier one at the same path. -/
def Disk.remaining (disk : Disk) : List (String × FileText) → List (String × FileText)
  | [] => []
  | file :: files =>
    if files.any fun later => disk.normalizePathKey later.1 = disk.normalizePathKey file.1 then disk.remaining files
    else file :: disk.remaining files

/-- The case arrays of the files that remain hold every case once, and so do their
registrations of fixtures. -/
structure RegisteredOnce (disk : Disk) (files : List (String × FileText)) (cases : List TestCaseInfo)
    (fixtures : List FixtureDeclInfo) : Prop where
  cases : ((disk.remaining files).flatMap fun file => file.2.caseArray).Perm cases
  fixtures : ((disk.remaining files).flatMap fun file => file.2.sharedFixtures).Perm fixtures

theorem remaining_append {disk : Disk} {front behind : List (String × FileText)}
    (hfront : (front.map fun file => disk.normalizePathKey file.1).Nodup)
    (hapart : ∀ file ∈ front, ∀ later ∈ behind, disk.normalizePathKey later.1 ≠ disk.normalizePathKey file.1) :
    disk.remaining (front ++ behind) = front ++ disk.remaining behind := by
  induction front with
  | nil => rfl
  | cons file front ih =>
    obtain ⟨hfile, hfront⟩ := List.nodup_cons.mp hfront
    obtain ⟨hfileApart, hapart⟩ := List.forall_mem_cons.mp hapart
    have hkept : (front ++ behind).any (fun later =>
        disk.normalizePathKey later.1 = disk.normalizePathKey file.1) = false := by
      rw [List.any_eq_false]
      intro later hlater heq
      obtain hmem | hmem := List.mem_append.mp hlater
      · exact hfile (List.mem_map.mpr ⟨later, hmem, of_decide_eq_true heq⟩)
      · exact hfileApart later hmem (of_decide_eq_true heq)
    simp only [List.cons_append, Disk.remaining, hkept, Bool.false_eq_true, if_false, ih hfront hapart]

theorem remaining_subset {disk : Disk} (files : List (String × FileText)) :
    ∀ file ∈ disk.remaining files, file ∈ files := by
  induction files with
  | nil => exact fun _ h => h
  | cons first files ih =>
    intro file hfile
    unfold Disk.remaining at hfile
    split at hfile
    · exact List.mem_cons_of_mem _ (ih file hfile)
    · exact (List.mem_cons.mp hfile).elim (fun h => h ▸ List.mem_cons_self) fun h => List.mem_cons_of_mem _ (ih file h)

-- ---------------------------------------------------------------------------
-- Files without registrations
-- ---------------------------------------------------------------------------

/-- Nothing is registered by what is written. -/
def Emitted.Unregistered (o : Emitted) : Prop :=
  ∀ file ∈ o.writes, file.2.caseArray = [] ∧ file.2.sharedFixtures = [] ∧ file.2.registrar = none

theorem Emitted.unregistered_fail (error : String) : (Emitted.fail error).Unregistered := fun _ h => (nomatch h)

theorem Emitted.unregistered_nil : ({} : Emitted).Unregistered := fun _ h => (nomatch h)

theorem unregistered_writeFile (disk : Disk) (path : String) {text : FileText} (hcases : text.caseArray = [])
    (hfixtures : text.sharedFixtures = []) (hregistrar : text.registrar = none) :
    (writeFile disk path text).Unregistered := by
  unfold writeFile
  split
  · exact Emitted.unregistered_fail _
  · intro file hfile
    cases List.mem_singleton.mp hfile
    exact ⟨hcases, hfixtures, hregistrar⟩

theorem Emitted.Unregistered.andThen {first second : Emitted} (hfirst : first.Unregistered)
    (hsecond : second.Unregistered) : (first.andThen second).Unregistered := by
  unfold Emitted.andThen
  split
  · intro file hfile
    exact (List.mem_append.mp hfile).elim (hfirst file) (hsecond file)
  · exact hfirst

section

variable {std : UnstableSort} {disk : Disk} {opts : CollectorOptions} {data : PerSourceEmitData} {idx : Nat}
  {wrapperSource : String → PerSourceEmitData → Option String} {renderError : List MockClassInfo → Option String}
  {cases : List TestCaseInfo} {fixtures : List FixtureDeclInfo} {mocks : List MockClassInfo}

theorem unregistered_writeArtifactManifest : (writeArtifactManifest disk opts).Unregistered := by
  refine Emitted.Unregistered.andThen ?_ ?_
  · unfold writeModuleRegistrationManifest
    split
    · exact Emitted.unregistered_nil
    · exact unregistered_writeFile disk _ rfl rfl rfl
  · unfold writeTextualHeaderRegistrationManifest
    split
    · exact Emitted.unregistered_nil
    · split
      · exact Emitted.unregistered_fail _
      · exact unregistered_writeFile disk _ rfl rfl rfl

theorem unregistered_mockFiles : (mockFiles disk opts renderError mocks).Unregistered := by
  have hdomains : (mockDomainFiles disk opts).Unregistered := by
    unfold mockDomainFiles
    generalize (buildMockOutputDomains disk opts).flatMap (fun domain => [domain.registryPath, domain.implPath]) = paths
    induction paths with
    | nil => exact Emitted.unregistered_nil
    | cons path paths ih => exact (unregistered_writeFile disk path rfl rfl rfl).andThen ih
  have hcheck : ∀ error, (Emitted.check error).Unregistered := by
    intro error
    cases error with
    | none => exact Emitted.unregistered_nil
    | some error => exact Emitted.unregistered_fail error
  have hpublic : (if opts.mockPublicHeaderPath = "" then {}
      else writeFile disk opts.mockPublicHeaderPath (.other "mock public header") : Emitted).Unregistered := by
    split
    · exact Emitted.unregistered_nil
    · exact unregistered_writeFile disk _ rfl rfl rfl
  unfold mockFiles
  dsimp only
  split
  · split
    · exact Emitted.unregistered_fail _
    · exact (hcheck _).andThen <| (unregistered_writeFile disk _ rfl rfl rfl).andThen <|
        (unregistered_writeFile disk _ rfl rfl rfl).andThen <| hpublic.andThen hdomains
  · exact Emitted.unregistered_nil

theorem Emitted.Unregistered.flatMap {o : Emitted} (h : o.Unregistered) :
    (o.writes.flatMap fun file => file.2.caseArray) = [] ∧ (o.writes.flatMap fun file => file.2.sharedFixtures) = [] :=
  ⟨List.flatMap_eq_nil_iff.mpr fun file hfile => (h file hfile).1,
    List.flatMap_eq_nil_iff.mpr fun file hfile => (h file hfile).2.1⟩

-- ---------------------------------------------------------------------------
-- The registrations of a slot
-- ---------------------------------------------------------------------------

theorem Emitted.andThen_ok {first second : Emitted} (h : (first.andThen second).errors = []) :
    first.errors = [] ∧ second.errors = [] ∧ (first.andThen second).writes = first.writes ++ second.writes := by
  unfold Emitted.andThen at h ⊢
  split at h
  · rename_i hok
    rw [if_pos hok]
    exact ⟨hok, h, rfl⟩
  · rename_i hfailed
    exact absurd h hfailed

theorem writeFile_ok {path : String} {text : FileText} (h : (writeFile disk path text).errors = []) :
    (writeFile disk path text).writes = [(path, text)] := by
  unfold writeFile at h ⊢
  split
  · rename_i hwrite
    rw [hwrite] at h
    cases h
  · rfl

/-- A file that registers what the slot has. -/
structure Registers (data : PerSourceEmitData) (files : List (String × FileText)) : Prop where
  cases : (files.flatMap fun file => file.2.caseArray) = data.cases
  fixtures : (files.flatMap fun file => file.2.sharedFixtures) = data.fixtures.filter fun f => f.scope ≠ .localScope

theorem registers_render (path registerFn : String) (headers : List String) (data : PerSourceEmitData) :
    Registers data [(path, renderRegistration registerFn headers data)] := by
  unfold renderRegistration
  split
  · rename_i hempty
    exact ⟨hempty.1.symm, by simp [hempty.2, FileText.sharedFixtures]⟩
  · exact ⟨List.append_nil _, List.append_nil _⟩

theorem Registers.append {files : List (String × FileText)} (h : Registers data files) {o : Emitted}
    (ho : o.Unregistered) : Registers data (files ++ o.writes) := by
  obtain ⟨hcases, hfixtures⟩ := ho.flatMap
  exact ⟨by rw [List.flatMap_append, hcases, List.append_nil, h.cases],
    by rw [List.flatMap_append, hfixtures, List.append_nil, h.fixtures]⟩

theorem registers_textualSlot {headers : List String} (h : (textualSlot disk opts headers data idx).errors = []) :
    Registers data (textualSlot disk opts headers data idx).writes := by
  unfold textualSlot at h ⊢
  split at h
  · cases h
  · rename_i hmodule
    rw [if_neg hmodule]
    split at h
    · cases h
    · split at h
      · cases h
      · rename_i hheaders
        rw [if_neg hheaders, writeFile_ok h]
        exact registers_render _ _ _ data

theorem unregistered_moduleFile :
    (if isModuleInterfaceSource disk opts (opts.source idx) then
      if opts.moduleRegistrationOutputs ≠ [] then moduleRegistrationFile disk opts data idx
      else moduleWrapperFile disk opts wrapperSource data idx
    else {}).Unregistered := by
  split
  · split
    · unfold moduleRegistrationFile
      split
      · exact Emitted.unregistered_fail _
      · split
        · split
          · exact Emitted.unregistered_fail _
          · split
            · exact Emitted.unregistered_fail _
            · exact unregistered_writeFile disk _ rfl rfl rfl
        · exact Emitted.unregistered_fail _
        · exact Emitted.unregistered_fail _
    · unfold moduleWrapperFile
      split
      · exact Emitted.unregistered_fail _
      · exact Emitted.unregistered_fail _
      · exact unregistered_writeFile disk _ rfl rfl rfl
  · exact Emitted.unregistered_nil

theorem registers_headerSlot (h : (headerSlot disk opts wrapperSource data idx).errors = []) :
    Registers data (headerSlot disk opts wrapperSource data idx).writes := by
  unfold headerSlot at h ⊢
  obtain ⟨hheader, -, hwrites⟩ := Emitted.andThen_ok h
  rw [hwrites, writeFile_ok hheader]
  exact (registers_render _ _ _ data).append unregistered_moduleFile

def slotFiles (std : UnstableSort) (disk : Disk) (opts : CollectorOptions)
    (wrapperSource : String → PerSourceEmitData → Option String) (cases : List TestCaseInfo)
    (fixtures : List FixtureDeclInfo) (mocks : List MockClassInfo) (idx : Nat) : Emitted :=
  let key := disk.normalizePathKey (opts.source idx)
  let data := perSource std disk opts cases fixtures mocks key
  if opts.textualRegistrationOutputs ≠ [] then
    textualSlot disk opts (declaredHeaders disk cases fixtures key) data idx
  else headerSlot disk opts wrapperSource data idx

/-- If none of the slots fails their files stand one slot after the other. -/
theorem registrationFiles_ok (hdir : opts.tuOutputDir ≠ "")
    (h : (registrationFiles std disk opts wrapperSource cases fixtures mocks).errors = []) :
    (registrationFiles std disk opts wrapperSource cases fixtures mocks).writes =
        (List.range opts.sources.length).flatMap
          (fun idx => (slotFiles std disk opts wrapperSource cases fixtures mocks idx).writes) ∧
      ∀ idx < opts.sources.length, (slotFiles std disk opts wrapperSource cases fixtures mocks idx).errors = [] := by
  unfold registrationFiles at h ⊢
  rw [if_neg hdir] at h ⊢
  obtain ⟨hdirOk, hrest, hwrites⟩ := Emitted.andThen_ok h
  obtain ⟨hmocks, hslots, hwrites'⟩ := Emitted.andThen_ok hrest
  have hcheck : ∀ error, (Emitted.check error).writes = [] := by
    intro error
    cases error <;> rfl
  rw [hwrites, hwrites', hcheck, hcheck, List.nil_append, List.nil_append]
  refine ⟨by rw [Emitted.all, List.flatMap_map]; rfl, ?_⟩
  intro idx hidx
  exact List.flatMap_eq_nil_iff.mp hslots _ (List.mem_map_of_mem (List.mem_range.mpr hidx))

theorem registers_slotFiles (h : (slotFiles std disk opts wrapperSource cases fixtures mocks idx).errors = []) :
    Registers (perSource std disk opts cases fixtures mocks (disk.normalizePathKey (opts.source idx)))
      (slotFiles std disk opts wrapperSource cases fixtures mocks idx).writes := by
  unfold slotFiles at h ⊢
  dsimp only at h ⊢
  split at h
  · rename_i htextual
    rw [if_pos htextual]
    exact registers_textualSlot h
  · rename_i htextual
    rw [if_neg htextual]
    exact registers_headerSlot h

-- ---------------------------------------------------------------------------
-- No registration file is replaced
-- ---------------------------------------------------------------------------

theorem emit_planned (hdir : opts.tuOutputDir ≠ "") {a : Artifact}
    (ha : a ∈ registrationPlan disk opts ++ (manifestPlan opts ++ mockPlan disk opts)) : a ∈ plannedArtifacts disk opts := by
  have hdiscovery : ¬opts.mockManifestDiscoveryOnly = true := by
    simp [CollectorOptions.mockManifestDiscoveryOnly, hdir]
  unfold plannedArtifacts
  rw [if_neg hdiscovery]
  exact List.mem_append_right _ (List.mem_append_right _ (List.mem_append_left _ ha))

theorem stage_of_later {a : Artifact} (ha : a ∈ manifestPlan opts ++ mockPlan disk opts) : a.stage ≠ 2 := by
  obtain ha | ha := List.mem_append.mp ha
  · have hmanifest : a = .single .artifactManifest := by
      unfold manifestPlan at ha
      split at ha
      · cases ha
      · obtain ha | ha := List.mem_append.mp ha
        · split at ha
          · cases ha
          · exact List.mem_singleton.mp ha
        · split at ha
          · cases ha
          · exact List.mem_singleton.mp ha
    rw [hmanifest]
    decide
  · obtain ⟨first, second, hmocks, hfirst, hsecond⟩ := @staged_mockPlan disk opts
    rw [hmocks] at ha
    obtain ha | ha := List.mem_append.mp ha
    · rw [hfirst.stage a ha]
      decide
    · rw [hsecond.stage a ha]
      decide

theorem casefold_eq {left right : String} (h : disk.normalizePathKey left = disk.normalizePathKey right) :
    disk.casefoldedPathKey left = disk.casefoldedPathKey right := by
  rw [Disk.casefoldedPathKey, h, Disk.casefoldedPathKey]

theorem remaining_registrations (h : Accepted std disk opts) (hdir : opts.tuOutputDir ≠ "") {slots later : Emitted}
    (hslots : slots.Follows ((registrationPlan disk opts).map (·.path opts))) (hslotsOk : slots.errors = [])
    (hlater : later.Follows ((manifestPlan opts ++ mockPlan disk opts).map (·.path opts))) :
    disk.remaining (slots.writes ++ later.writes) = slots.writes ++ disk.remaining later.writes := by
  have hinj : ∀ a ∈ registrationPlan disk opts ++ (manifestPlan opts ++ mockPlan disk opts),
      ∀ b ∈ registrationPlan disk opts ++ (manifestPlan opts ++ mockPlan disk opts),
      a.path opts ≠ "" → b.path opts ≠ "" →
      disk.normalizePathKey (a.path opts) = disk.normalizePathKey (b.path opts) → a = b := by
    intro a ha b hb hpa hpb hkey
    exact List.inj_on_of_nodup_map h.keys_nodup (planned_checked h (emit_planned hdir ha) hpa)
      (planned_checked h (emit_planned hdir hb) hpb) (casefold_eq hkey)
  have hall := hslots.all hslotsOk
  have hnamed : ∀ a ∈ registrationPlan disk opts, a.path opts ≠ "" := by
    intro a ha
    exact hslots.named _ (hall ▸ List.mem_map_of_mem ha)
  refine remaining_append ?_ ?_
  · have hkeys : slots.writes.map (fun file => disk.normalizePathKey file.1) =
        (registrationPlan disk opts).map fun a => disk.normalizePathKey (a.path opts) := by
      have hmap := congrArg (List.map disk.normalizePathKey) hall
      simpa [Emitted.paths, Function.comp_def] using hmap
    rw [hkeys]
    refine List.Nodup.map_on ?_ staged_registrationPlan.nodup
    intro a ha b hb hkey
    exact hinj a (List.mem_append_left _ ha) b (List.mem_append_left _ hb) (hnamed a ha) (hnamed b hb) hkey
  · intro file hfile other hother hkey
    have hfilePath : file.1 ∈ (registrationPlan disk opts).map (·.path opts) := hall ▸ List.mem_map_of_mem hfile
    obtain ⟨a, ha, hapath⟩ := List.mem_map.mp hfilePath
    have hotherPath : other.1 ∈ later.paths := List.mem_map_of_mem hother
    obtain ⟨b, hb, hbpath⟩ := List.mem_map.mp (hlater.part.subset hotherPath)
    have hbnamed : b.path opts ≠ "" := hbpath ▸ hlater.named _ hotherPath
    rw [← hapath, ← hbpath] at hkey
    have hsame := hinj b (List.mem_append_right _ hb) a (List.mem_append_left _ ha) hbnamed (hnamed a ha) hkey
    exact stage_of_later hb (hsame ▸ staged_registrationPlan.stage a ha)

-- ---------------------------------------------------------------------------
-- Exactly one registration
-- ---------------------------------------------------------------------------

theorem slots_of_sources : (List.range opts.sources.length).map opts.source = opts.sources := by
  refine List.ext_getElem (by simp) ?_
  intro i hi hi'
  simp [CollectorOptions.source, hi']

theorem handOut_slots {α : Type} [DecidableEq α] (unit : α → String) (items : List α) :
    (List.range opts.sources.length).flatMap (fun idx =>
        items.filter fun a => disk.normalizePathKey (unit a) = disk.normalizePathKey (opts.source idx)) =
      Grouping.handOut (fun a => disk.normalizePathKey (unit a)) (opts.sources.map disk.normalizePathKey) items := by
  have hsources : opts.sources.map disk.normalizePathKey =
      (List.range opts.sources.length).map fun idx => disk.normalizePathKey (opts.source idx) := by
    conv_lhs => rw [← @slots_of_sources opts, List.map_map]
    rfl
  rw [Grouping.handOut, hsources, List.flatMap_map]

theorem registrations_handed_out (hdir : opts.tuOutputDir ≠ "")
    (hok : (emit std disk opts wrapperSource renderError cases fixtures mocks).errors = []) :
    ((disk.remaining (emit std disk opts wrapperSource renderError cases fixtures mocks).writes).flatMap
        fun file => file.2.caseArray).Perm
      (Grouping.handOut (fun c => disk.normalizePathKey c.tuFilename) (opts.sources.map disk.normalizePathKey)
        (casesForRender disk opts cases)) ∧
    ((disk.remaining (emit std disk opts wrapperSource renderError cases fixtures mocks).writes).flatMap
        fun file => file.2.sharedFixtures) =
      (Grouping.handOut (fun f => disk.normalizePathKey f.tuFilename) (opts.sources.map disk.normalizePathKey)
        (fixturesForRender disk opts fixtures)).filter fun f => f.scope ≠ .localScope := by
  unfold emit at hok ⊢
  split at hok
  · cases hok
  · rename_i hvalid
    have haccepted := accepted_of_validate hvalid
    obtain ⟨hslotsOk, -, hwrites⟩ := Emitted.andThen_ok hok
    generalize hfiles : (writeArtifactManifest disk opts).andThen (mockFiles disk opts renderError mocks) = later
      at hwrites
    have hlater : later.Follows ((manifestPlan opts ++ mockPlan disk opts).map (·.path opts)) := by
      rw [← hfiles, List.map_append]
      exact follows_writeArtifactManifest.andThen (follows_mockFiles haccepted.domains)
    have hnone : later.Unregistered := by
      rw [← hfiles]
      exact unregistered_writeArtifactManifest.andThen unregistered_mockFiles
    have hremaining := remaining_registrations haccepted hdir follows_registrationFiles hslotsOk hlater
    have hnoCases : (disk.remaining later.writes).flatMap (fun file => file.2.caseArray) = [] :=
      List.flatMap_eq_nil_iff.mpr fun file hfile => (hnone file (remaining_subset _ file hfile)).1
    have hnoFixtures : (disk.remaining later.writes).flatMap (fun file => file.2.sharedFixtures) = [] :=
      List.flatMap_eq_nil_iff.mpr fun file hfile => (hnone file (remaining_subset _ file hfile)).2.1
    obtain ⟨hslot, hslotOk⟩ := registrationFiles_ok hdir hslotsOk
    rw [hwrites, hremaining, List.flatMap_append, List.flatMap_append, hnoCases, hnoFixtures,
      List.append_nil, List.append_nil, hslot, List.flatMap_assoc, List.flatMap_assoc, ← handOut_slots, ← handOut_slots,
      List.filter_flatMap]
    refine ⟨List.Perm.flatMap_left _ fun idx hidx => ?_, List.flatMap_congr fun idx hidx => ?_⟩
    · rw [(registers_slotFiles (hslotOk idx (List.mem_range.mp hidx))).cases]
      exact std.perm _ _
    · exact (registers_slotFiles (hslotOk idx (List.mem_range.mp hidx))).fixtures

/-- A run that writes all its registration files registers every case and every
fixture once exactly when each of their translation units is named by one slot. -/
theorem registered_once_iff (std : UnstableSort) (disk : Disk) (opts : CollectorOptions)
    (wrapperSource : String → PerSourceEmitData → Option String) (renderError : List MockClassInfo → Option String)
    (cases : List TestCaseInfo) (fixtures : List FixtureDeclInfo) (mocks : List MockClassInfo)
    (hshared : ∀ f ∈ fixtures, f.scope ≠ .localScope) (hdir : opts.tuOutputDir ≠ "")
    (hok : (emit std disk opts wrapperSource renderError cases fixtures mocks).errors = []) :
    RegisteredOnce disk (emit std disk opts wrapperSource renderError cases fixtures mocks).writes
        (casesForRender disk opts cases) (fixturesForRender disk opts fixtures) ↔
      ∀ unit ∈ cases.map (·.tuFilename) ++ fixtures.map (·.tuFilename),
        (opts.sources.map disk.normalizePathKey).count (disk.normalizePathKey unit) = 1 := by
  obtain ⟨hcases, hfixtures⟩ := registrations_handed_out hdir hok
  have hkept : (Grouping.handOut (fun f => disk.normalizePathKey f.tuFilename)
      (opts.sources.map disk.normalizePathKey) (fixturesForRender disk opts fixtures)).filter
        (fun f => f.scope ≠ .localScope) =
      Grouping.handOut (fun f => disk.normalizePathKey f.tuFilename) (opts.sources.map disk.normalizePathKey)
        (fixturesForRender disk opts fixtures) := by
    refine List.filter_eq_self.mpr fun f hf => ?_
    obtain ⟨key, -, hf⟩ := List.mem_flatMap.mp hf
    obtain ⟨g, hg, rfl⟩ := List.mem_map.mp (List.mem_filter.mp hf).1
    exact decide_eq_true (hshared g hg)
  rw [hkept] at hfixtures
  have hone : RegisteredOnce disk (emit std disk opts wrapperSource renderError cases fixtures mocks).writes
      (casesForRender disk opts cases) (fixturesForRender disk opts fixtures) ↔
      (∀ c ∈ casesForRender disk opts cases,
        (opts.sources.map disk.normalizePathKey).count (disk.normalizePathKey c.tuFilename) = 1) ∧
      ∀ f ∈ fixturesForRender disk opts fixtures,
        (opts.sources.map disk.normalizePathKey).count (disk.normalizePathKey f.tuFilename) = 1 := by
    rw [← Grouping.handOut_perm_iff, ← Grouping.handOut_perm_iff]
    exact ⟨fun h => ⟨hcases.symm.trans h.cases, hfixtures ▸ h.fixtures⟩,
      fun h => ⟨hcases.trans h.1, hfixtures.symm ▸ h.2⟩⟩
  rw [hone]
  simp [casesForRender, fixturesForRender, or_imp, forall_and]

def headerOptions (first second : String) : CollectorOptions where
  tuOutputDir := "out"
  textualRegistrationOutputs := ["out/r0.cpp", "out/r1.cpp"]
  sources := [first, second]

def scannedCase (header : String) : TestCaseInfo where
  qualifiedName := "adds"
  displayName := "adds"
  baseName := "adds"
  tuFilename := header
  filename := header

theorem two_headers_register_once :
    (emit insertion plainDisk (headerOptions "a.hpp" "b.hpp") (fun _ _ => none) (fun _ => none)
        [scannedCase "a.hpp"] [] []).errors = [] ∧
      RegisteredOnce plainDisk (emit insertion plainDisk (headerOptions "a.hpp" "b.hpp") (fun _ _ => none)
          (fun _ => none) [scannedCase "a.hpp"] [] []).writes
        (casesForRender plainDisk (headerOptions "a.hpp" "b.hpp") [scannedCase "a.hpp"])
        (fixturesForRender plainDisk (headerOptions "a.hpp" "b.hpp") []) := by
  have hok : (emit insertion plainDisk (headerOptions "a.hpp" "b.hpp") (fun _ _ => none) (fun _ => none)
      [scannedCase "a.hpp"] [] []).errors = [] := by decide +kernel
  exact ⟨hok, (registered_once_iff insertion plainDisk _ _ _ _ _ _ (by simp) (by decide) hok).mpr
    (by decide +kernel)⟩

/-- One header in two slots: both files that are written register its test. -/
theorem one_header_registers_twice :
    (emit insertion plainDisk (headerOptions "a.hpp" "a.hpp") (fun _ _ => none) (fun _ => none)
        [scannedCase "a.hpp"] [] []).errors = [] ∧
      (∀ c ∈ [scannedCase "a.hpp"], ∃ source ∈ (headerOptions "a.hpp" "a.hpp").sources,
        plainDisk.normalizePathKey source = plainDisk.normalizePathKey c.tuFilename) ∧
      ¬RegisteredOnce plainDisk (emit insertion plainDisk (headerOptions "a.hpp" "a.hpp") (fun _ _ => none)
          (fun _ => none) [scannedCase "a.hpp"] [] []).writes
        (casesForRender plainDisk (headerOptions "a.hpp" "a.hpp") [scannedCase "a.hpp"])
        (fixturesForRender plainDisk (headerOptions "a.hpp" "a.hpp") []) := by
  refine ⟨by decide +kernel, by decide +kernel, fun h => ?_⟩
  have hlength := h.cases.length_eq
  revert hlength
  decide +kernel

end

end Gentest.Codegen
