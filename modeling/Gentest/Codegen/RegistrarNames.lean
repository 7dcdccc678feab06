import Gentest.Codegen.RegisteredOnce
import Gentest.Lib.Decimal

/-!
# Names of registrars

A registration file defines a class `register_tu_<number>_registrar`, whose constructor
is inline with external linkage and registers the case array of its file. Of several
definitions under one name the linker keeps one. The number comes from the name of the
source file or from its slot.
-/

namespace Gentest.Codegen

open Sorting

-- ---------------------------------------------------------------------------
-- Numbers
-- ---------------------------------------------------------------------------

theorem registerFn_injective : Function.Injective registerFn := by
  have hread : ∀ n, Nat.ofDigitChars 10 ((registerFn n).toList.drop 12) 0 = n := by
    intro n
    have hname : (registerFn n).toList = "register_tu_".toList ++
        (List.replicate (4 - (toString n).length) '0' ++ Nat.toDigits 10 n) := by
      simp [registerFn]
    rw [hname, List.drop_left' (by decide), Nat.ofDigitChars_append, Nat.ofDigitChars_replicate_zero, Nat.mul_zero,
      Nat.ofDigitChars_ten_toDigits]
  intro m n h
  rw [← hread m, h, hread n]

/-- The number that stands behind `tu_` in a file name. -/
def tuNumber (filename : String) : Option Nat :=
  match filename.toList with
  | 't' :: 'u' :: '_' :: rest =>
    let digits := rest.takeWhile Char.isDigit
    if digits = [] then none else some (Decimal.digitsValue digits)
  | _ => none

theorem foldl_mod_eq (digits : List Char) (value : Nat) :
    digits.foldl (fun value ch => (value * 10 + (ch.toNat - '0'.toNat)) % 2 ^ 32) (value % 2 ^ 32) =
      Nat.ofDigitChars 10 digits value % 2 ^ 32 := by
  induction digits generalizing value with
  | nil => rfl
  | cons ch digits ih =>
    have hstep : (value % 2 ^ 32 * 10 + (ch.toNat - '0'.toNat)) % 2 ^ 32 =
        (10 * value + (ch.toNat - '0'.toNat)) % 2 ^ 32 := by omega
    rw [List.foldl_cons, hstep, ih, Nat.ofDigitChars_cons]

theorem parseTuIndex_eq (filename : String) : parseTuIndex filename = (tuNumber filename).map (· % 2 ^ 32) := by
  obtain ⟨rest, hrest⟩ | hother := em (∃ rest, filename.toList = 't' :: 'u' :: '_' :: rest)
  · simp only [parseTuIndex, tuNumber, hrest]
    by_cases hnone : rest.takeWhile Char.isDigit = []
    · simp [hnone]
    · simp only [hnone, if_false, Option.map_some]
      exact congrArg some (foldl_mod_eq _ 0)
  · have hparse : parseTuIndex filename = none := by
      unfold parseTuIndex
      split
      · exact absurd ⟨_, ‹_›⟩ hother
      · rfl
    have hnumber : tuNumber filename = none := by
      unfold tuNumber
      split
      · exact absurd ⟨_, ‹_›⟩ hother
      · rfl
    rw [hparse, hnumber, Option.map_none]

section

variable (disk : Disk) (opts : CollectorOptions) (cases : List TestCaseInfo) (fixtures : List FixtureDeclInfo)

def slotNumber (idx : Nat) : Nat :=
  if opts.textualRegistrationOutputs ≠ [] then idx
  else (tuNumber (fileName (opts.source idx))).getD idx

/-- A case or a fixture was found in the slot's source. -/
def HasRegistrations (idx : Nat) : Prop :=
  ∃ unit ∈ cases.map (·.tuFilename) ++ fixtures.map (·.tuFilename),
    disk.normalizePathKey unit = disk.normalizePathKey (opts.source idx)

/-- The slots with registrations have numbers that differ modulo `2 ^ 32`. -/
def NumbersApart : Prop :=
  opts.tuOutputDir ≠ "" → ∀ first second, first < second → second < opts.sources.length →
    HasRegistrations disk opts cases fixtures first → HasRegistrations disk opts cases fixtures second →
      slotNumber opts first % 2 ^ 32 ≠ slotNumber opts second % 2 ^ 32

end

-- ---------------------------------------------------------------------------
-- Registrars of a run
-- ---------------------------------------------------------------------------

/-- What a linker keeps: for each name one of the definitions under it. -/
def Links (files : List (String × FileText)) (kept : String → String × FileText) : Prop :=
  ∀ file ∈ files, ∀ name, file.2.registrar = some name →
    kept name ∈ files ∧ (kept name).2.registrar = some name

/-- No two files share a name, so every registrar that is linked is that of its file. -/
structure RegistrarsApart (files : List (String × FileText)) : Prop where
  names : (files.filterMap (·.2.registrar)).Nodup
  own : ∀ kept, Links files kept → ∀ file ∈ files, ∀ name, file.2.registrar = some name → kept name = file

theorem registrarsApart_iff_nodup {files : List (String × FileText)} :
    RegistrarsApart files ↔ (files.filterMap (·.2.registrar)).Nodup := by
  refine ⟨fun h => h.names, fun hnodup => ⟨hnodup, ?_⟩⟩
  intro kept hlinks file hfile name hname
  obtain ⟨hkept, hkeptName⟩ := hlinks file hfile name hname
  by_contra hne
  let Apart (a b : String × FileText) : Prop :=
    ∀ x, a.2.registrar = some x → ∀ y, b.2.registrar = some y → x ≠ y
  have hsymm : Std.Symm Apart := ⟨fun a b hab x hx y hy heq => hab y hy x hx heq.symm⟩
  have hpairwise : files.Pairwise Apart := List.pairwise_filterMap.mp hnodup
  exact hpairwise.forall hkept hfile hne name hkeptName name hname rfl

section

variable {std : UnstableSort} {disk : Disk} {opts : CollectorOptions} {data : PerSourceEmitData} {idx : Nat}
  {wrapperSource : String → PerSourceEmitData → Option String} {renderError : List MockClassInfo → Option String}
  {cases : List TestCaseInfo} {fixtures : List FixtureDeclInfo} {mocks : List MockClassInfo}

theorem Emitted.Unregistered.names {o : Emitted} (h : o.Unregistered) : o.writes.filterMap (·.2.registrar) = [] :=
  List.filterMap_eq_nil_iff.mpr fun file hfile => (h file hfile).2.2

theorem perSource_empty_iff {slot : PerSourceEmitData}
    (hslot : slot = perSource std disk opts cases fixtures mocks (disk.normalizePathKey (opts.source idx))) :
    slot.cases = [] ∧ slot.fixtures = [] ↔ ¬HasRegistrations disk opts cases fixtures idx := by
  have hcases : slot.cases = [] ↔
      ∀ c ∈ cases, disk.normalizePathKey c.tuFilename ≠ disk.normalizePathKey (opts.source idx) := by
    subst hslot
    have hperm := std.perm (fun c d : TestCaseInfo => decide (c.displayName < d.displayName))
      ((casesForRender disk opts cases).filter fun c =>
        disk.normalizePathKey c.tuFilename = disk.normalizePathKey (opts.source idx))
    refine Iff.trans ⟨fun h => List.Perm.eq_nil (h ▸ hperm.symm), fun h => List.Perm.eq_nil (h ▸ hperm)⟩ ?_
    simp [List.filter_eq_nil_iff, casesForRender]
  have hfixtures : slot.fixtures = [] ↔
      ∀ f ∈ fixtures, disk.normalizePathKey f.tuFilename ≠ disk.normalizePathKey (opts.source idx) := by
    subst hslot
    simp [perSource, List.filter_eq_nil_iff, fixturesForRender]
  rw [hcases, hfixtures, HasRegistrations]
  simp [or_imp, forall_and]

theorem names_render (path registerFn : String) (headers : List String) :
    [(path, renderRegistration registerFn headers data)].filterMap (·.2.registrar) =
      if data.cases = [] ∧ data.fixtures = [] then [] else [registerFn] := by
  unfold renderRegistration
  split <;> rfl

theorem names_textualSlot {headers : List String} (h : (textualSlot disk opts headers data idx).errors = []) :
    (textualSlot disk opts headers data idx).writes.filterMap (·.2.registrar) =
      if data.cases = [] ∧ data.fixtures = [] then [] else [registerFn (idx % 2 ^ 32)] := by
  unfold textualSlot at h ⊢
  split at h
  · cases h
  · rename_i hmodule
    rw [if_neg hmodule]
    split at h
    · cases h
    · split at h
      · cases h
      · rename_i hheaders
        rw [if_neg hheaders, writeFile_ok h]
        exact names_render _ _ _

theorem names_headerSlot (h : (headerSlot disk opts wrapperSource data idx).errors = []) :
    (headerSlot disk opts wrapperSource data idx).writes.filterMap (·.2.registrar) =
      if data.cases = [] ∧ data.fixtures = [] then []
      else [registerFn ((tuNumber (fileName (opts.source idx))).getD idx % 2 ^ 32)] := by
  have hnumber : (parseTuIndex (fileName (opts.source idx))).getD (idx % 2 ^ 32) =
      (tuNumber (fileName (opts.source idx))).getD idx % 2 ^ 32 := by
    rw [parseTuIndex_eq]
    cases tuNumber (fileName (opts.source idx)) <;> rfl
  unfold headerSlot at h ⊢
  obtain ⟨hheader, -, hwrites⟩ := Emitted.andThen_ok h
  rw [hwrites, writeFile_ok hheader, List.filterMap_append, unregistered_moduleFile.names, List.append_nil, hnumber]
  exact names_render _ _ _

theorem names_slotFiles (h : (slotFiles std disk opts wrapperSource cases fixtures mocks idx).errors = [])
    (hdata : data = perSource std disk opts cases fixtures mocks (disk.normalizePathKey (opts.source idx))) :
    (slotFiles std disk opts wrapperSource cases fixtures mocks idx).writes.filterMap (·.2.registrar) =
      if data.cases = [] ∧ data.fixtures = [] then [] else [registerFn (slotNumber opts idx % 2 ^ 32)] := by
  subst hdata
  unfold slotFiles at h ⊢
  dsimp only at h ⊢
  unfold slotNumber
  split at h
  · rename_i htextual
    rw [if_pos htextual, if_pos htextual]
    exact names_textualSlot h
  · rename_i htextual
    rw [if_neg htextual, if_neg htextual]
    exact names_headerSlot h

theorem names_emit (hok : (emit std disk opts wrapperSource renderError cases fixtures mocks).errors = []) :
    (registrationFiles std disk opts wrapperSource cases fixtures mocks).errors = [] ∧
    (emit std disk opts wrapperSource renderError cases fixtures mocks).writes.filterMap (·.2.registrar) =
      (registrationFiles std disk opts wrapperSource cases fixtures mocks).writes.filterMap (·.2.registrar) := by
  unfold emit at hok ⊢
  split at hok
  · cases hok
  · obtain ⟨hslotsOk, -, hwrites⟩ := Emitted.andThen_ok hok
    have hlater : ((writeArtifactManifest disk opts).andThen (mockFiles disk opts renderError mocks)).Unregistered :=
      unregistered_writeArtifactManifest.andThen unregistered_mockFiles
    exact ⟨hslotsOk, by rw [hwrites, List.filterMap_append, hlater.names, List.append_nil]⟩

theorem flatMap_unless {α β : Type} {Skip : α → Prop} [DecidablePred Skip] (f : α → β) (items : List α) :
    (items.flatMap fun a => if Skip a then [] else [f a]) = (items.filter fun a => ¬Skip a).map f := by
  induction items with
  | nil => rfl
  | cons a items ih =>
    rw [List.flatMap_cons, ih]
    by_cases hskip : Skip a <;> simp [hskip]

theorem names_registrationFiles (hdir : opts.tuOutputDir ≠ "")
    (hok : (registrationFiles std disk opts wrapperSource cases fixtures mocks).errors = []) :
    ∃ slots : List Nat, slots.Nodup ∧
      (∀ idx, idx ∈ slots ↔ idx < opts.sources.length ∧ HasRegistrations disk opts cases fixtures idx) ∧
      (registrationFiles std disk opts wrapperSource cases fixtures mocks).writes.filterMap (·.2.registrar) =
        slots.map fun idx => registerFn (slotNumber opts idx % 2 ^ 32) := by
  obtain ⟨hslots, hslotOk⟩ := registrationFiles_ok hdir hok
  let slotData (idx : Nat) := perSource std disk opts cases fixtures mocks (disk.normalizePathKey (opts.source idx))
  refine ⟨(List.range opts.sources.length).filter fun idx => ¬((slotData idx).cases = [] ∧ (slotData idx).fixtures = []),
    List.nodup_range.filter _, ?_, ?_⟩
  · intro idx
    rw [List.mem_filter, List.mem_range, decide_eq_true_eq]
    exact and_congr_right fun _ => (not_congr (perSource_empty_iff rfl)).trans not_not
  · rw [hslots, List.filterMap_flatMap, ← flatMap_unless]
    exact List.flatMap_congr fun idx hidx => names_slotFiles (hslotOk idx (List.mem_range.mp hidx)) rfl

/-- The registrars of a run that succeeds are apart exactly when the numbers of the slots
with registrations are. -/
theorem registrarsApart_iff (std : UnstableSort) (disk : Disk) (opts : CollectorOptions)
    (wrapperSource : String → PerSourceEmitData → Option String) (renderError : List MockClassInfo → Option String)
    (cases : List TestCaseInfo) (fixtures : List FixtureDeclInfo) (mocks : List MockClassInfo)
    (hok : (emit std disk opts wrapperSource renderError cases fixtures mocks).errors = []) :
    RegistrarsApart (emit std disk opts wrapperSource renderError cases fixtures mocks).writes ↔
      NumbersApart disk opts cases fixtures := by
  obtain ⟨hregistrations, hemit⟩ := names_emit hok
  rw [registrarsApart_iff_nodup, hemit]
  by_cases hdir : opts.tuOutputDir = ""
  · have hnone : (registrationFiles std disk opts wrapperSource cases fixtures mocks).writes = [] := by
      rw [registrationFiles, if_pos hdir]
    rw [hnone]
    exact ⟨fun _ h => absurd hdir h, fun _ => List.nodup_nil⟩
  · obtain ⟨slots, hslots, hmem, hnames⟩ := names_registrationFiles hdir hregistrations
    rw [hnames, List.nodup_map_iff_inj_on hslots]
    constructor
    · intro hinj _ first second hlt hsecond hfirstFull hsecondFull heq
      have hsame := hinj first ((hmem first).mpr ⟨hlt.trans hsecond, hfirstFull⟩) second
        ((hmem second).mpr ⟨hsecond, hsecondFull⟩) (congrArg registerFn heq)
      exact absurd hsame hlt.ne
    · intro hapart first hfirst second hsecond heq
      have hnumber := registerFn_injective heq
      obtain ⟨hfirstLt, hfirstFull⟩ := (hmem first).mp hfirst
      obtain ⟨hsecondLt, hsecondFull⟩ := (hmem second).mp hsecond
      rcases Nat.lt_trichotomy first second with hlt | rfl | hlt
      · exact absurd hnumber (hapart hdir first second hlt hsecondLt hfirstFull hsecondFull)
      · rfl
      · exact absurd hnumber.symm (hapart hdir second first hlt hfirstLt hsecondFull hfirstFull)

end

def moduleOptions (first second : String) : CollectorOptions where
  tuOutputDir := "out"
  tuOutputHeaders := ["out/h0.h", "out/h1.h"]
  moduleRegistrationOutputs := ["out/m0.cpp", "out/m1.cpp"]
  moduleInterfaceNamesBySource := [(first, "first"), (second, "second")]
  moduleInterfaceSources := [first, second]
  sources := [first, second]

def emitModules (first second : String) : Emitted :=
  emit insertion plainDisk (moduleOptions first second) (fun _ _ => none) (fun _ => none)
    [scannedCase first, scannedCase second] [] []

/-- A second file named `tu_2` keeps off the number of the first slot. -/
theorem tu_2_registrarsApart : (emitModules "a.cppm" "tu_2.cppm").errors = [] ∧
    (RegistrarsApart (emitModules "a.cppm" "tu_2.cppm").writes ↔
      NumbersApart plainDisk (moduleOptions "a.cppm" "tu_2.cppm") [scannedCase "a.cppm", scannedCase "tu_2.cppm"] []) := by
  have hok : (emitModules "a.cppm" "tu_2.cppm").errors = [] := by decide +kernel
  exact ⟨hok, registrarsApart_iff insertion plainDisk _ _ _ _ _ _ hok⟩

/-- The file `tu_0.cppm` of the second slot has the number of the first slot. -/
theorem tu_0_registrars_clash : (emitModules "a.cppm" "tu_0.cppm").errors = [] ∧
    ¬RegistrarsApart (emitModules "a.cppm" "tu_0.cppm").writes := by
  refine ⟨by decide +kernel, fun h => ?_⟩
  have hnames := h.names
  revert hnames
  decide +kernel

end Gentest.Codegen
