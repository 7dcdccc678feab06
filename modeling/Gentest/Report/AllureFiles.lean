import Gentest.Lib.Decimal
import Gentest.Lib.Trimming
import Gentest.Lib.WhileLoops
import Gentest.Runner.ResultModel

/-!
# The files of an Allure report

Each report item has a result file and a file for each of its attachments. The stem of an
attachment's file is made from its name and changed until no file of the item has it. Texts
are bytes, each a character of its number.
-/

namespace Gentest.Report

open Gentest.Runner WhileLoops

-- ---------------------------------------------------------------------------
-- Names
-- ---------------------------------------------------------------------------

def sanitizeStemChar (ch : Char) : Char :=
  if ch.isUpper then ch.toLower
  else if ch.isLower || ch.isDigit || ch = '-' || ch = '_' then ch
  else '-'

def sanitizeAttachmentStem (name fallback : String) : List Char :=
  let stem := Trimming.trim (· = '-') (name.toList.map sanitizeStemChar)
  if stem.isEmpty then fallback.toList else stem

def sanitizeAttachmentExtension (extension fallback : String) : List Char :=
  let cleaned := extension.toList.filter fun ch => ch.isAlphanum || ch = '.' || ch = '-' || ch = '_'
  let cleaned := if cleaned.isEmpty then fallback.toList else cleaned
  if cleaned.head? = some '.' then cleaned else '.' :: cleaned

/-- A turn of the search for a free stem, from the stem that is tried and the count of
duplicates. -/
def stemSearch (usedStems : List (List Char)) (stem : List Char) : List Char × Nat → Step (List Char × Nat) (List Char)
  | (uniqueStem, duplicateCount) =>
    if usedStems.contains uniqueStem then .next (stem ++ '-' :: Nat.toDigits 10 duplicateCount, duplicateCount + 1)
    else .done uniqueStem

/-- The stem that the search returns; its turns are bounded by the used stems. -/
def uniqueStem (usedStems : List (List Char)) (stem : List Char) : List Char :=
  (run (stemSearch usedStems stem) (usedStems.length + 1) (stem, 1)).getD stem

-- ---------------------------------------------------------------------------
-- Items
-- ---------------------------------------------------------------------------

structure ReportAttachment where
  name : String
  mimeType : String
  fileExtension : String
  contents : String
  deriving DecidableEq

structure AttachedItem extends ReportItem where
  attachments : List ReportAttachment

/-- An attachment in the result of its item, with what its file is made of. -/
structure AllureEntry where
  name : String
  mimeType : String
  stem : List Char
  extension : List Char
  contents : String

/-- The entries of an item; the stem of the result itself is used, and that of each entry. -/
def addAttachment (entries : List AllureEntry) (attachment : ReportAttachment) : List AllureEntry :=
  entries ++
    [{ name := attachment.name
       mimeType := attachment.mimeType
       stem := uniqueStem ("result".toList :: entries.map (·.stem)) (sanitizeAttachmentStem attachment.name "attachment")
       extension := sanitizeAttachmentExtension attachment.fileExtension ".bin"
       contents := attachment.contents }]

def joinLines (lines : List String) : String := "\n".intercalate lines

def plainEntry (name stem : String) (lines : List String) : List AllureEntry :=
  if lines.isEmpty then []
  else
    [{ name, mimeType := "text/plain", stem := stem.toList, extension := ".txt".toList, contents := joinLines lines }]

def AttachedItem.entries (it : AttachedItem) : List AllureEntry :=
  it.attachments.foldl addAttachment
    (plainEntry "logs" "attachment" it.logs ++ plainEntry "timeline" "timeline" it.timeline)

-- ---------------------------------------------------------------------------
-- Results
-- ---------------------------------------------------------------------------

structure AllureAttachment where
  name : String
  source : List Char
  type : String
  deriving DecidableEq

/-- The object of a result; what is left out of it is `none` or empty. -/
structure AllureResult where
  name : String
  status : String
  time : Rat
  labels : List (String × String)
  message : Option String
  attachments : List AllureAttachment := []
  deriving DecidableEq

def dropFront (text front : String) : String := String.ofList (text.toList.drop front.length)

def startsWithText (text front : String) : Bool := front.toList.isPrefixOf text.toList

/-- The reason behind `front` and the blanks that follow it. -/
def reasonBehind (front reason : String) : String :=
  if startsWithText reason front then String.ofList ((dropFront reason front).toList.dropWhile (· = ' ')) else reason

def AttachedItem.labels (it : AttachedItem) : List (String × String) :=
  [("suite", it.suite)] ++ (if it.outcome = .blocked then [("blocked", "true")] else []) ++
    if it.skipped && startsWithText it.skipReason "xfail" then
      [("xfail", if it.skipReason = "xfail" then "" else reasonBehind "xfail:" it.skipReason)]
    else if it.outcome = .blocked && reasonBehind "blocked:" it.skipReason ≠ "" then
      [("blocked_reason", reasonBehind "blocked:" it.skipReason)]
    else []

/-- `result-<idx>-<stem><extension>` -/
def allureFileName (idx : Nat) (stem extension : List Char) : List Char :=
  "result-".toList ++ Nat.toDigits 10 idx ++ '-' :: (stem ++ extension)

def AllureEntry.fileName (idx : Nat) (entry : AllureEntry) : List Char :=
  allureFileName idx entry.stem entry.extension

def resultFileName (idx : Nat) : List Char := allureFileName idx "result".toList ".json".toList

def AttachedItem.result (idx : Nat) (it : AttachedItem) : AllureResult where
  name := it.name
  status := if it.failures.isEmpty then (if it.skipped then "skipped" else "passed") else "failed"
  time := it.timeS
  labels := it.labels
  message :=
    match it.failures with
    | failure :: _ => some failure
    | [] => if it.skipped && it.skipReason ≠ "" then some it.skipReason else none
  attachments := it.entries.map fun entry =>
    { name := entry.name, source := entry.fileName idx, type := entry.mimeType }

def infraResult (infraIdx : Nat) (message : String) : AllureResult where
  name := "gentest/infra_error/" ++ toString infraIdx
  status := "failed"
  time := 0
  labels := [("suite", "gentest/infra")]
  message := some message

-- ---------------------------------------------------------------------------
-- Files
-- ---------------------------------------------------------------------------

/-- `directory / fileName` -/
structure PendingAllureFile where
  directory : String
  fileName : List Char
  label : String
  contents : String

structure AllureAccumulator where
  reportItems : List AttachedItem
  infraErrors : List String

section

variable (serialize : AllureResult → String) (allureDir : String)

def AllureEntry.file (idx : Nat) (entry : AllureEntry) : PendingAllureFile where
  directory := allureDir
  fileName := entry.fileName idx
  label := "Allure attachment"
  contents := entry.contents

def resultFile (idx : Nat) (result : AllureResult) : PendingAllureFile where
  directory := allureDir
  fileName := resultFileName idx
  label := "Allure result"
  contents := serialize result

def AttachedItem.files (idx : Nat) (it : AttachedItem) : List PendingAllureFile :=
  it.entries.map (AllureEntry.file allureDir idx) ++ [resultFile serialize allureDir idx (it.result idx)]

def buildPendingAllureFiles (acc : AllureAccumulator) : List PendingAllureFile :=
  (acc.reportItems.zipIdx.flatMap fun (it, idx) => it.files serialize allureDir idx) ++
    acc.infraErrors.zipIdx.map fun (message, infraIdx) =>
      resultFile serialize allureDir (acc.reportItems.length + infraIdx) (infraResult infraIdx message)

end

-- ---------------------------------------------------------------------------
-- The search for a stem
-- ---------------------------------------------------------------------------

variable {usedStems : List (List Char)} {stem extension : List Char} {k idx : Nat}

def candidate (stem : List Char) : Nat → List Char
  | 0 => stem
  | k + 1 => stem ++ '-' :: Nat.toDigits 10 (k + 1)

theorem toDigits_inj {m n : Nat} (h : Nat.toDigits 10 m = Nat.toDigits 10 n) : m = n := by
  rw [← Nat.ofDigitChars_ten_toDigits (n := m), h, Nat.ofDigitChars_ten_toDigits]

theorem candidate_injective (stem : List Char) : Function.Injective (candidate stem) := by
  intro j k h
  match j, k with
  | 0, 0 => rfl
  | 0, k + 1 => simp [candidate] at h
  | j + 1, 0 => simp [candidate] at h
  | j + 1, k + 1 => exact toDigits_inj (List.cons.inj (List.append_cancel_left h)).2

theorem stemSearch_of_mem (h : candidate stem k ∈ usedStems) :
    stemSearch usedStems stem (candidate stem k, k + 1) = .next (candidate stem (k + 1), k + 1 + 1) :=
  if_pos (List.contains_iff_mem.mpr h)

theorem stemSearch_of_not_mem (h : candidate stem k ∉ usedStems) :
    stemSearch usedStems stem (candidate stem k, k + 1) = .done (candidate stem k) :=
  if_neg fun hused => h (List.contains_iff_mem.mp hused)

theorem used_of_run_none {turns : Nat} (h : run (stemSearch usedStems stem) turns (candidate stem k, k + 1) = none) :
    ∀ j < turns, candidate stem (k + j) ∈ usedStems := by
  induction turns generalizing k with
  | zero => exact fun j hj => absurd hj (Nat.not_lt_zero j)
  | succ turns ih =>
    by_cases hused : candidate stem k ∈ usedStems
    · rw [run, stemSearch_of_mem hused] at h
      intro j hj
      cases j with
      | zero => exact hused
      | succ j =>
        rw [← Nat.succ_add_eq_add_succ]
        exact ih h j (Nat.lt_of_succ_lt_succ hj)
    · rw [run, stemSearch_of_not_mem hused] at h
      cases h

theorem uniqueStem_ends (usedStems : List (List Char)) (stem : List Char) :
    Ends (stemSearch usedStems stem) (stem, 1) (uniqueStem usedStems stem) := by
  unfold uniqueStem
  cases hrun : run (stemSearch usedStems stem) (usedStems.length + 1) (stem, 1) with
  | some found => exact ends_of_run hrun
  | none =>
    have hused := used_of_run_none (k := 0) hrun
    have hnodup : ((List.range (usedStems.length + 1)).map (candidate stem)).Nodup :=
      List.nodup_range.map (candidate_injective stem)
    have hsub : ((List.range (usedStems.length + 1)).map (candidate stem)) ⊆ usedStems := by
      intro tried htried
      obtain ⟨j, hj, rfl⟩ := List.mem_map.mp htried
      have hmem := hused j (List.mem_range.mp hj)
      rwa [Nat.zero_add] at hmem
    have hlength := (List.subperm_of_subset hnodup hsub).length_le
    rw [List.length_map, List.length_range] at hlength
    omega

theorem uniqueStem_spec (usedStems : List (List Char)) (stem : List Char) :
    uniqueStem usedStems stem ∉ usedStems ∧ ∃ k, uniqueStem usedStems stem = candidate stem k := by
  refine Ends.post (I := fun s => ∃ k, s = (candidate stem k, k + 1))
    (Q := fun found => found ∉ usedStems ∧ ∃ k, found = candidate stem k) ?_ ?_ ⟨0, rfl⟩
    (uniqueStem_ends usedStems stem)
  · rintro _ s' ⟨k, rfl⟩ hstep
    by_cases hused : candidate stem k ∈ usedStems
    · rw [stemSearch_of_mem hused] at hstep
      exact ⟨k + 1, (Step.next.inj hstep).symm⟩
    · rw [stemSearch_of_not_mem hused] at hstep
      cases hstep
  · rintro _ found ⟨k, rfl⟩ hstep
    by_cases hused : candidate stem k ∈ usedStems
    · rw [stemSearch_of_mem hused] at hstep
      cases hstep
    · rw [stemSearch_of_not_mem hused] at hstep
      obtain rfl := Step.done.inj hstep
      exact ⟨hused, k, rfl⟩

-- ---------------------------------------------------------------------------
-- The stems of an item
-- ---------------------------------------------------------------------------

def isStemChar (ch : Char) : Bool := ch.isLower || ch.isDigit || ch = '-' || ch = '_'

theorem isLower_toLower {ch : Char} (h : ch.isUpper = true) : ch.toLower.isLower = true := by
  delta Char.isUpper Char.isLower Char.toLower at *
  simp only [Bool.and_eq_true, decide_eq_true_eq, UInt32.le_iff_toNat_le] at *
  split
  · simp [UInt32.toNat_add] at *
    omega
  · rename_i hrange
    exact absurd h hrange

theorem toLower_of_not_isUpper {ch : Char} (h : ¬ ch.isUpper = true) : ch.toLower = ch := by
  delta Char.isUpper at h
  have hrange : ¬ (ch.val ≥ 'A'.val ∧ ch.val ≤ 'Z'.val) := by simpa using h
  exact dif_neg hrange

theorem isStemChar_sanitizeStemChar (ch : Char) : isStemChar (sanitizeStemChar ch) = true := by
  unfold sanitizeStemChar isStemChar
  split
  · rename_i hupper
    rw [isLower_toLower hupper]
    rfl
  · split
    · assumption
    · rfl

theorem sanitizeAttachmentStem_all (name : String) {fallback : String} (h : fallback.toList.all isStemChar = true) :
    (sanitizeAttachmentStem name fallback).all isStemChar = true := by
  rw [sanitizeAttachmentStem]
  split_ifs
  · exact h
  · refine List.all_eq_true.mpr fun ch hch => ?_
    obtain ⟨read, -, rfl⟩ := List.mem_map.mp (Trimming.mem_of_mem_trim hch)
    exact isStemChar_sanitizeStemChar read

theorem digits_all (n : Nat) : (Nat.toDigits 10 n).all isStemChar = true :=
  List.all_eq_true.mpr fun digit hdigit => by
    simp [isStemChar, Nat.isDigit_of_mem_toDigits (by decide) (by decide) hdigit]

theorem candidate_all (h : stem.all isStemChar = true) (k : Nat) : (candidate stem k).all isStemChar = true := by
  cases k with
  | zero => exact h
  | succ k =>
    rw [candidate, List.all_append, List.all_cons, h, digits_all]
    rfl

def isNameChar (ch : Char) : Bool := ch.isAlphanum || ch = '.' || ch = '-' || ch = '_'

def isExtension (extension : List Char) : Bool := extension.head? = some '.' && extension.all isNameChar

theorem isExtension_sanitize (extension : String) {fallback : String} (h : fallback.toList.all isNameChar = true) :
    isExtension (sanitizeAttachmentExtension extension fallback) = true := by
  have hcleaned : ∀ cleaned : List Char, cleaned.all isNameChar = true →
      isExtension (if cleaned.head? = some '.' then cleaned else '.' :: cleaned) = true := by
    intro cleaned hall
    split
    · rename_i hdot
      rw [isExtension, hdot, hall]
      rfl
    · rw [isExtension, List.all_cons, hall]
      rfl
  rw [sanitizeAttachmentExtension]
  refine hcleaned _ ?_
  split
  · exact h
  · exact List.all_eq_true.mpr fun ch hch => List.of_mem_filter hch

/-- The names of entries are made of the letters of a name, and their stems differ from each
other and from that of the result. -/
structure StemsApart (entries : List AllureEntry) : Prop where
  stems : ∀ entry ∈ entries, entry.stem.all isStemChar = true
  extensions : ∀ entry ∈ entries, isExtension entry.extension = true
  nodup : (entries.map (·.stem) ++ ["result".toList]).Nodup

theorem stemsApart_addAttachment {entries : List AllureEntry} (h : StemsApart entries)
    (attachment : ReportAttachment) : StemsApart (addAttachment entries attachment) := by
  obtain ⟨hfree, k, hk⟩ := uniqueStem_spec ("result".toList :: entries.map (·.stem))
    (sanitizeAttachmentStem attachment.name "attachment")
  refine ⟨fun entry hentry => ?_, fun entry hentry => ?_, ?_⟩
  · obtain hentry | hentry := List.mem_append.mp hentry
    · exact h.stems entry hentry
    · obtain rfl := List.mem_singleton.mp hentry
      change List.all (uniqueStem _ _) _ = true
      rw [hk]
      exact candidate_all (sanitizeAttachmentStem_all _ (by decide)) k
  · obtain hentry | hentry := List.mem_append.mp hentry
    · exact h.extensions entry hentry
    · obtain rfl := List.mem_singleton.mp hentry
      exact isExtension_sanitize _ (by decide)
  · have hnodup := (List.perm_append_singleton _ _).nodup_iff.mp h.nodup
    rw [(List.perm_append_singleton _ _).nodup_iff, addAttachment, List.map_append, ← List.cons_append]
    refine List.nodup_append.mpr ⟨hnodup, List.nodup_singleton _, ?_⟩
    rintro used hused added hadded rfl
    rw [List.mem_singleton.mp hadded] at hused
    exact hfree hused

theorem stemsApart_plain (it : AttachedItem) :
    StemsApart (plainEntry "logs" "attachment" it.logs ++ plainEntry "timeline" "timeline" it.timeline) := by
  unfold plainEntry
  constructor <;> split <;> split <;> simp <;> decide

theorem stemsApart_entries (it : AttachedItem) : StemsApart it.entries :=
  List.foldlRecOn it.attachments addAttachment (stemsApart_plain it)
    fun _ h attachment _ => stemsApart_addAttachment h attachment

-- ---------------------------------------------------------------------------
-- The names of files
-- ---------------------------------------------------------------------------

/-- A name up to its extension, in lower case. -/
def foldedStem (fileName : List Char) : List Char := (fileName.map Char.toLower).takeWhile (· ≠ '.')

/-- `result-<idx>-<stem>` -/
def stemOf (idx : Nat) (stem : List Char) : List Char := "result-".toList ++ Nat.toDigits 10 idx ++ '-' :: stem

theorem stemOf_inj {idx idx' : Nat} {stem stem' : List Char} (h : stemOf idx stem = stemOf idx' stem') :
    idx = idx' ∧ stem = stem' := by
  unfold stemOf at h
  rw [List.append_assoc, List.append_assoc] at h
  exact Decimal.toDigits_append_inj rfl (List.append_cancel_left h)

theorem not_isUpper_of_isStemChar {ch : Char} (h : isStemChar ch = true) : ¬ ch.isUpper = true := by
  simp only [isStemChar, Bool.or_eq_true, decide_eq_true_eq] at h
  obtain ((hlower | hdigit) | rfl) | rfl := h
  · delta Char.isLower Char.isUpper at *
    simp only [Bool.and_eq_true, decide_eq_true_eq, UInt32.le_iff_toNat_le] at *
    simp at *
    omega
  · delta Char.isDigit Char.isUpper at *
    simp only [Bool.and_eq_true, decide_eq_true_eq, UInt32.le_iff_toNat_le] at *
    simp at *
    omega
  · decide
  · decide

theorem ne_dot_of_isStemChar {ch : Char} (h : isStemChar ch = true) : ch ≠ '.' := by
  rintro rfl
  cases h

theorem stemOf_all (h : stem.all isStemChar = true) : (stemOf idx stem).all isStemChar = true := by
  refine List.all_eq_true.mpr fun ch hch => ?_
  obtain hch | hch := List.mem_append.mp hch
  · obtain hch | hch := List.mem_append.mp hch
    · exact List.all_eq_true.mp (by decide) ch hch
    · exact List.all_eq_true.mp (digits_all idx) ch hch
  · obtain rfl | hch := List.mem_cons.mp hch
    · rfl
    · exact List.all_eq_true.mp h ch hch

theorem foldedStem_allureFileName (hstem : stem.all isStemChar = true) (hextension : extension.head? = some '.') :
    foldedStem (allureFileName idx stem extension) = stemOf idx stem := by
  obtain ⟨rest, rfl⟩ := List.head?_eq_some_iff.mp hextension
  have hall := List.all_eq_true.mp (show (stemOf idx stem).all isStemChar = true from stemOf_all hstem)
  have hlower : (stemOf idx stem).map Char.toLower = stemOf idx stem :=
    (List.map_congr_left fun ch hch =>
      toLower_of_not_isUpper (not_isUpper_of_isStemChar (hall ch hch))).trans (List.map_id _)
  have hname : allureFileName idx stem ('.' :: rest) = stemOf idx stem ++ '.' :: rest :=
    (List.append_assoc _ ('-' :: stem) _).symm
  rw [foldedStem, hname, List.map_append, hlower, List.takeWhile_append_of_pos, List.map_cons,
    List.takeWhile_cons_of_neg, List.append_nil]
  · decide
  · exact fun ch hch => decide_eq_true (ne_dot_of_isStemChar (hall ch hch))

-- ---------------------------------------------------------------------------
-- All files
-- ---------------------------------------------------------------------------

/-- The stems of the files of each item and of each infra error. -/
def AllureAccumulator.stems (acc : AllureAccumulator) : List (List (List Char)) :=
  acc.reportItems.map (fun it => it.entries.map (·.stem) ++ ["result".toList]) ++
    acc.infraErrors.map fun _ => ["result".toList]

theorem foldedStem_entry {it : AttachedItem} {entry : AllureEntry} (h : entry ∈ it.entries) :
    foldedStem (entry.fileName idx) = stemOf idx entry.stem :=
  foldedStem_allureFileName ((stemsApart_entries it).stems entry h)
    (of_decide_eq_true (Bool.and_eq_true_iff.mp ((stemsApart_entries it).extensions entry h)).1)

theorem foldedStem_result (idx : Nat) : foldedStem (resultFileName idx) = stemOf idx "result".toList :=
  foldedStem_allureFileName (by decide) (by decide)

variable (serialize : AllureResult → String) (allureDir : String) (acc : AllureAccumulator)

theorem foldedStem_itemFiles (it : AttachedItem) (idx : Nat) :
    (it.files serialize allureDir idx).map (fun file => foldedStem file.fileName) =
      (it.entries.map (·.stem) ++ ["result".toList]).map (stemOf idx) := by
  rw [AttachedItem.files, List.map_append, List.map_append, List.map_map, List.map_map]
  refine congrArg₂ (· ++ ·) (List.map_congr_left fun entry hentry => foldedStem_entry hentry) ?_
  exact congrArg (fun stem => [stem]) (foldedStem_result idx)

theorem foldedStem_files :
    (buildPendingAllureFiles serialize allureDir acc).map (fun file => foldedStem file.fileName) =
      acc.stems.zipIdx.flatMap fun (stems, idx) => stems.map (stemOf idx) := by
  rw [buildPendingAllureFiles, AllureAccumulator.stems, List.zipIdx_append, List.flatMap_append, List.map_append,
    List.map_flatMap, List.zipIdx_map, List.flatMap_map]
  refine congrArg₂ (· ++ ·) (List.flatMap_congr fun owner _ => foldedStem_itemFiles serialize allureDir _ _) ?_
  rw [List.map_map, List.zipIdx_map, List.flatMap_map, List.length_map, Nat.zero_add,
    List.zipIdx_eq_map_add (i := acc.reportItems.length), List.flatMap_map, List.map_eq_flatMap]
  exact List.flatMap_congr fun owner _ => congrArg (fun stem => [stem]) (foldedStem_result _)

theorem nodup_stems : ∀ stems ∈ acc.stems, stems.Nodup := by
  intro stems hstems
  obtain hstems | hstems := List.mem_append.mp hstems
  · obtain ⟨it, -, rfl⟩ := List.mem_map.mp hstems
    exact (stemsApart_entries it).nodup
  · obtain ⟨message, -, rfl⟩ := List.mem_map.mp hstems
    exact List.nodup_singleton _

theorem nodup_foldedStems :
    ((buildPendingAllureFiles serialize allureDir acc).map fun file => foldedStem file.fileName).Nodup := by
  rw [foldedStem_files, List.nodup_flatMap]
  constructor
  · rintro ⟨stems, idx⟩ howner
    exact (nodup_stems acc stems (List.fst_mem_of_mem_zipIdx howner)).map fun _ _ h => (stemOf_inj h).2
  · have hidx : (acc.stems.zipIdx.map Prod.snd).Nodup := by
      rw [List.zipIdx_map_snd]
      exact List.nodup_range'
    refine (List.pairwise_map.mp hidx).imp fun hne => ?_
    intro name hname hname'
    obtain ⟨stem, -, rfl⟩ := List.mem_map.mp hname
    obtain ⟨stem', -, hsame⟩ := List.mem_map.mp hname'
    exact hne (stemOf_inj hsame).1.symm

theorem filter_fileName {file : PendingAllureFile} (h : file ∈ buildPendingAllureFiles serialize allureDir acc) :
    (buildPendingAllureFiles serialize allureDir acc).filter (·.fileName = file.fileName) = [file] := by
  have hnodup := nodup_foldedStems serialize allureDir acc
  generalize buildPendingAllureFiles serialize allureDir acc = files at h hnodup
  induction files with
  | nil => cases h
  | cons first files ih =>
    obtain ⟨hfirst, hfiles⟩ := List.nodup_cons.mp hnodup
    obtain rfl | hlater := List.mem_cons.mp h
    · have hnone : files.filter (·.fileName = file.fileName) = [] := by
        refine List.filter_eq_nil_iff.mpr fun other hother hsame => hfirst ?_
        exact List.mem_map.mpr ⟨other, hother, congrArg foldedStem (of_decide_eq_true hsame)⟩
      rw [List.filter_cons_of_pos (by simp), hnone]
    · have hne : ¬ decide (first.fileName = file.fileName) = true := fun hsame =>
        hfirst (List.mem_map.mpr ⟨file, hlater, congrArg foldedStem (of_decide_eq_true hsame).symm⟩)
      exact (List.filter_cons_of_neg (p := fun other : PendingAllureFile => decide (other.fileName = file.fileName))
        hne).trans (ih hlater hfiles)

theorem mem_files {it : AttachedItem} (hit : (it, idx) ∈ acc.reportItems.zipIdx) {file : PendingAllureFile}
    (h : file ∈ it.files serialize allureDir idx) : file ∈ buildPendingAllureFiles serialize allureDir acc :=
  List.mem_append_left _ (List.mem_flatMap.mpr ⟨(it, idx), hit, h⟩)

theorem filter_itemFiles (it : AttachedItem) (idx : Nat) :
    (it.files serialize allureDir idx).filter (·.label = "Allure result") =
      [resultFile serialize allureDir idx (it.result idx)] := by
  have hnone : (it.entries.map (AllureEntry.file allureDir idx)).filter (·.label = "Allure result") = [] := by
    refine List.filter_eq_nil_iff.mpr fun file hfile => ?_
    obtain ⟨entry, -, rfl⟩ := List.mem_map.mp hfile
    simp [AllureEntry.file]
  rw [AttachedItem.files, List.filter_append, hnone]
  rfl

def resultFiles : List PendingAllureFile :=
  (acc.reportItems.zipIdx.map fun (it, idx) => resultFile serialize allureDir idx (it.result idx)) ++
    acc.infraErrors.zipIdx.map fun (message, infraIdx) =>
      resultFile serialize allureDir (acc.reportItems.length + infraIdx) (infraResult infraIdx message)

theorem filter_label :
    (buildPendingAllureFiles serialize allureDir acc).filter (·.label = "Allure result") =
      resultFiles serialize allureDir acc := by
  rw [buildPendingAllureFiles, resultFiles, List.filter_append, List.filter_flatMap]
  refine congrArg₂ (· ++ ·) ?_ (List.filter_eq_self.mpr fun file hfile => ?_)
  · rw [List.map_eq_flatMap]
    exact List.flatMap_congr fun owner _ => filter_itemFiles serialize allureDir _ _
  · obtain ⟨owner, -, rfl⟩ := List.mem_map.mp hfile
    rfl

theorem resultFiles_fileNames :
    (resultFiles serialize allureDir acc).map (·.fileName) =
      (List.range (acc.reportItems.length + acc.infraErrors.length)).map resultFileName := by
  rw [resultFiles, List.range_add, List.map_append, List.map_append, List.range_eq_range', List.range_eq_range',
    ← List.zipIdx_map_snd 0 acc.reportItems, ← List.zipIdx_map_snd 0 acc.infraErrors]
  simp only [List.map_map]
  rfl

theorem resultFile_count (idx : Nat) :
    ((buildPendingAllureFiles serialize allureDir acc).filter (·.fileName = resultFileName idx)).length =
      if idx < acc.reportItems.length + acc.infraErrors.length then 1 else 0 := by
  split
  · rename_i hlt
    have hname : resultFileName idx ∈ (resultFiles serialize allureDir acc).map (·.fileName) := by
      rw [resultFiles_fileNames]
      exact List.mem_map_of_mem (List.mem_range.mpr hlt)
    obtain ⟨file, hfile, hsame⟩ := List.mem_map.mp hname
    rw [← filter_label] at hfile
    rw [← hsame, filter_fileName serialize allureDir acc (List.mem_of_mem_filter hfile)]
    rfl
  · rename_i hlt
    refine List.length_eq_zero_iff.mpr (List.filter_eq_nil_iff.mpr fun file hfile hsame => hlt ?_)
    have hname := List.mem_map_of_mem (f := fun file => foldedStem file.fileName) hfile
    rw [foldedStem_files] at hname
    obtain ⟨⟨stems, idx'⟩, howner, hstem⟩ := List.mem_flatMap.mp hname
    obtain ⟨stem, -, hstem⟩ := List.mem_map.mp hstem
    rw [of_decide_eq_true hsame, foldedStem_result] at hstem
    obtain ⟨rfl, -⟩ := stemOf_inj hstem
    have hlt := (List.mem_zipIdx howner).2.1
    simpa [AllureAccumulator.stems] using hlt

/-- What the attachments of an item hold: its logs, its timeline, and each of its own. -/
def AttachedItem.held (it : AttachedItem) : List (String × String × String) :=
  (if it.logs.isEmpty then [] else [("logs", "text/plain", joinLines it.logs)]) ++
    (if it.timeline.isEmpty then [] else [("timeline", "text/plain", joinLines it.timeline)]) ++
      it.attachments.map fun attachment => (attachment.name, attachment.mimeType, attachment.contents)

def AllureEntry.held (entry : AllureEntry) : String × String × String := (entry.name, entry.mimeType, entry.contents)

theorem foldl_addAttachment_held (attachments : List ReportAttachment) (entries : List AllureEntry) :
    (attachments.foldl addAttachment entries).map AllureEntry.held =
      entries.map AllureEntry.held ++
        attachments.map fun attachment => (attachment.name, attachment.mimeType, attachment.contents) := by
  induction attachments generalizing entries with
  | nil => exact (List.append_nil _).symm
  | cons attachment attachments ih =>
    rw [List.foldl_cons, ih, addAttachment, List.map_append, List.append_assoc]
    rfl

theorem plainEntry_held (name stem : String) (lines : List String) :
    (plainEntry name stem lines).map AllureEntry.held =
      if lines.isEmpty then [] else [(name, "text/plain", joinLines lines)] := by
  unfold plainEntry
  split <;> rfl

theorem entries_held (it : AttachedItem) : it.entries.map AllureEntry.held = it.held := by
  rw [AttachedItem.entries, foldl_addAttachment_held, List.map_append, plainEntry_held, plainEntry_held,
    AttachedItem.held]

theorem isNameChar_of_isStemChar {ch : Char} (h : isStemChar ch = true) : isNameChar ch = true := by
  delta isStemChar isNameChar Char.isAlphanum Char.isAlpha at *
  simp only [Bool.or_eq_true] at *
  tauto

theorem allureFileName_all (hstem : stem.all isStemChar = true) (hextension : isExtension extension = true) :
    (allureFileName idx stem extension).all isNameChar = true := by
  have hname : allureFileName idx stem extension = stemOf idx stem ++ extension :=
    (List.append_assoc _ ('-' :: stem) _).symm
  refine List.all_eq_true.mpr fun ch hch => ?_
  rw [hname] at hch
  obtain hch | hch := List.mem_append.mp hch
  · exact isNameChar_of_isStemChar (List.all_eq_true.mp (stemOf_all hstem) ch hch)
  · exact List.all_eq_true.mp (Bool.and_eq_true_iff.mp hextension).2 ch hch

theorem resultFileName_all (idx : Nat) : (resultFileName idx).all isNameChar = true :=
  allureFileName_all (by decide) (by decide)

theorem files_inside {file : PendingAllureFile} (h : file ∈ buildPendingAllureFiles serialize allureDir acc) :
    file.directory = allureDir ∧ file.fileName.all isNameChar = true := by
  obtain h | h := List.mem_append.mp h
  · obtain ⟨⟨it, idx⟩, -, h⟩ := List.mem_flatMap.mp h
    obtain h | h := List.mem_append.mp h
    · obtain ⟨entry, hentry, rfl⟩ := List.mem_map.mp h
      have happart := stemsApart_entries it
      exact ⟨rfl, allureFileName_all (happart.stems entry hentry) (happart.extensions entry hentry)⟩
    · obtain rfl := List.mem_singleton.mp h
      exact ⟨rfl, resultFileName_all idx⟩
  · obtain ⟨owner, -, rfl⟩ := List.mem_map.mp h
    exact ⟨rfl, resultFileName_all _⟩

/-- The search for a stem ends, no two names agree up to their extensions in any case, all are
names in the directory, each item and each infra error has one result, and each attachment of a
result is in one file. -/
theorem allureFiles_apart :
    (∀ usedStems stem, Ends (stemSearch usedStems stem) (stem, 1) (uniqueStem usedStems stem)) ∧
    ((buildPendingAllureFiles serialize allureDir acc).map fun file => foldedStem file.fileName).Nodup ∧
    (∀ file ∈ buildPendingAllureFiles serialize allureDir acc,
      file.directory = allureDir ∧ file.fileName.all isNameChar = true) ∧
    (buildPendingAllureFiles serialize allureDir acc).filter (·.label = "Allure result") =
      resultFiles serialize allureDir acc ∧
    (∀ idx, ((buildPendingAllureFiles serialize allureDir acc).filter (·.fileName = resultFileName idx)).length =
      if idx < acc.reportItems.length + acc.infraErrors.length then 1 else 0) ∧
    ∀ it idx, (it, idx) ∈ acc.reportItems.zipIdx →
      List.Forall₂ (fun (attachment : AllureAttachment) (held : String × String × String) =>
        attachment.name = held.1 ∧ attachment.type = held.2.1 ∧
          ∃ file, (buildPendingAllureFiles serialize allureDir acc).filter (·.fileName = attachment.source) = [file] ∧
            file.contents = held.2.2) (it.result idx).attachments it.held := by
  refine ⟨uniqueStem_ends, nodup_foldedStems serialize allureDir acc,
    fun file hfile => files_inside serialize allureDir acc hfile, filter_label serialize allureDir acc,
    resultFile_count serialize allureDir acc, fun it idx hit => ?_⟩
  rw [AttachedItem.result, ← entries_held, List.forall₂_map_left_iff, List.forall₂_map_right_iff, List.forall₂_same]
  intro entry hentry
  have hfile := mem_files serialize allureDir acc hit
    (List.mem_append_left [resultFile serialize allureDir idx (it.result idx)] (List.mem_map_of_mem hentry))
  exact ⟨rfl, rfl, entry.file allureDir idx, filter_fileName serialize allureDir acc hfile, rfl⟩

end Gentest.Report
