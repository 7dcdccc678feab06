import Gentest.Codegen.ArtifactManifest
import Gentest.Codegen.SourcePathAliases

/-!
# Spelled paths

A path is spelled as a text and read step by step, from the root or from a directory. Each
name is followed through symbolic links before the next step is made, as the compiler does
for an include.
-/

namespace Gentest.Codegen

open LexicalPath

-- ---------------------------------------------------------------------------
-- Texts
-- ---------------------------------------------------------------------------

/-- Nothing stands between two separators in a row. -/
def stepOf (piece : List Char) : Option (Step FileName) :=
  if piece = ['.'] then some .here
  else if piece = ['.', '.'] then some .up
  else if h : String.ofList piece ∉ ["", ".", ".."] ∧ '/' ∉ (String.ofList piece).toList then some (.name ⟨_, h⟩)
  else none

def stepsOf (text : String) : List (Step FileName) := (text.toList.splitOn '/').filterMap stepOf

def isRooted (text : String) : Bool := text.toList.head? == some '/'

def stepText : Step FileName → List Char
  | .name name => name.text.toList
  | .up => ['.', '.']
  | .here => ['.']

def relativeText (steps : List (Step FileName)) : String := String.ofList (['/'].intercalate (steps.map stepText))

def absoluteText (names : List FileName) : String :=
  String.ofList ('/' :: ['/'].intercalate (names.map fun name => name.text.toList))

-- ---------------------------------------------------------------------------
-- Reading
-- ---------------------------------------------------------------------------

/-- A file system of finitely many links, and the current directory. -/
structure Volume extends FileSystem where
  root_resolved : resolve [] = []
  parent_resolved : ∀ path, resolve path = path → resolve path.dropLast = path.dropLast
  current : List FileName
  current_resolved : resolve current = current
  /-- Some name stands for no link in any directory. -/
  spare : ∀ avoid : List FileName, ∃ name ∉ avoid, ∀ dir, resolve dir = dir → resolve (dir ++ [name]) = dir ++ [name]

variable (vol : Volume)

def Volume.follow (dir : List FileName) : Step FileName → List FileName
  | .name name => vol.resolve (dir ++ [name])
  | .up => dir.dropLast
  | .here => dir

def Volume.reach (dir : List FileName) (steps : List (Step FileName)) : List FileName := steps.foldl vol.follow dir

def Volume.locate (text : String) : List FileName :=
  vol.reach (if isRooted text then [] else vol.current) (stepsOf text)

def Volume.folder (file : String) : List FileName := vol.locate (parentPath file)

/-- What an include literal in a file denotes. -/
def Volume.readInclude (file literal : String) : List FileName :=
  vol.reach (if isRooted literal then [] else vol.folder file) (stepsOf literal)

variable {vol} {dir : List FileName}

theorem Volume.resolve_resolve (vol : Volume) (path : List FileName) : vol.resolve (vol.resolve path) = vol.resolve path := by
  have h := vol.resolve_append path []
  rw [List.append_nil, List.append_nil] at h
  exact h.symm

theorem Volume.follow_resolved (h : vol.resolve dir = dir) (step : Step FileName) :
    vol.resolve (vol.follow dir step) = vol.follow dir step := by
  cases step with
  | name name => exact vol.resolve_resolve _
  | up => exact vol.parent_resolved dir h
  | here => exact h

theorem Volume.reach_resolved (h : vol.resolve dir = dir) (steps : List (Step FileName)) :
    vol.resolve (vol.reach dir steps) = vol.reach dir steps := by
  induction steps generalizing dir with
  | nil => exact h
  | cons step steps ih => exact ih (follow_resolved h step)

theorem Volume.locate_resolved (vol : Volume) (text : String) : vol.resolve (vol.locate text) = vol.locate text := by
  refine reach_resolved ?_ _
  split
  · exact vol.root_resolved
  · exact vol.current_resolved

theorem Volume.reach_append (dir : List FileName) (first second : List (Step FileName)) :
    vol.reach dir (first ++ second) = vol.reach (vol.reach dir first) second :=
  List.foldl_append

theorem Volume.reach_names (h : vol.resolve dir = dir) (names : List FileName) :
    vol.reach dir (names.map .name) = vol.resolve (dir ++ names) := by
  induction names generalizing dir with
  | nil =>
    rw [List.append_nil]
    exact h.symm
  | cons name names ih =>
    change vol.reach (vol.resolve (dir ++ [name])) (names.map .name) = _
    rw [ih (vol.resolve_resolve _), ← vol.resolve_append, List.append_assoc, List.singleton_append]

theorem Volume.reach_ups (dir : List FileName) (k : Nat) :
    vol.reach dir (List.replicate k .up) = dir.take (dir.length - k) := by
  rw [← walk_up]
  induction k generalizing dir with
  | zero => rfl
  | succ k ih => exact ih dir.dropLast

theorem Volume.reach_relative (h : vol.resolve dir = dir) (path base : List FileName) :
    vol.reach dir (relative path base) =
      vol.resolve (dir.take (dir.length - (base.length - common path base)) ++ path.drop (common path base)) := by
  rw [relative]
  split
  · rename_i heq
    rw [heq, common_self]
    simpa [reach, follow] using h.symm
  · have hups := reach_resolved h (List.replicate (base.length - common path base) .up)
    rw [reach_append]
    rw [reach_ups] at hups ⊢
    exact reach_names hups _

-- ---------------------------------------------------------------------------
-- What is spelled is read
-- ---------------------------------------------------------------------------

theorem stepOf_stepText (step : Step FileName) : stepOf (stepText step) = some step := by
  cases step with
  | up => rfl
  | here => rfl
  | name name =>
    have htext : String.ofList name.text.toList = name.text := String.ofList_toList
    obtain ⟨hword, hslash⟩ := name.proper
    simp only [List.mem_cons, List.not_mem_nil, or_false, not_or] at hword
    have hdot : name.text.toList ≠ ['.'] := fun h => hword.2.1 (by rw [← htext, h])
    have hdots : name.text.toList ≠ ['.', '.'] := fun h => hword.2.2 (by rw [← htext, h])
    rw [stepText, stepOf, if_neg hdot, if_neg hdots, dif_pos (by rw [htext]; exact name.proper)]
    obtain ⟨text, _⟩ := name
    simp [String.ofList_toList]

theorem slash_not_mem_stepText (step : Step FileName) : '/' ∉ stepText step := by
  cases step with
  | up => decide
  | here => decide
  | name name => exact name.proper.2

theorem filterMap_stepOf (steps : List (Step FileName)) : (steps.map stepText).filterMap stepOf = steps := by
  rw [List.filterMap_map]
  have h : stepOf ∘ stepText = some := funext stepOf_stepText
  rw [h, List.filterMap_some]

theorem stepsOf_intercalate (steps : List (Step FileName)) :
    ((['/'].intercalate (steps.map stepText)).splitOn '/').filterMap stepOf = steps := by
  by_cases hnil : steps = []
  · rw [hnil]
    rfl
  · rw [List.splitOn_intercalate '/' (by simpa using fun step _ => slash_not_mem_stepText step) (by simpa using hnil),
      filterMap_stepOf]

theorem stepsOf_relativeText (steps : List (Step FileName)) : stepsOf (relativeText steps) = steps := by
  rw [stepsOf, relativeText, String.toList_ofList]
  exact stepsOf_intercalate steps

theorem stepText_ne_nil (step : Step FileName) : stepText step ≠ [] := by
  cases step with
  | up => decide
  | here => decide
  | name name => exact fun h => name.proper.1 (by simp [String.toList_eq_nil_iff.mp h])

theorem isRooted_relativeText (steps : List (Step FileName)) : isRooted (relativeText steps) = false := by
  rw [isRooted, relativeText, String.toList_ofList, beq_eq_false_iff_ne]
  cases steps with
  | nil => exact nofun
  | cons step steps =>
    intro hhead
    obtain ⟨ch, rest, htext⟩ := List.exists_cons_of_ne_nil (stepText_ne_nil step)
    have hmem : ch ∈ stepText step := by simp [htext]
    have hch : ch = '/' := by
      cases steps with
      | nil => simpa [htext] using hhead
      | cons other steps => simpa [List.intercalate_cons_cons, htext] using hhead
    exact slash_not_mem_stepText step (hch ▸ hmem)

theorem spelled_append (front back : List Char) :
    ((front ++ '/' :: back).splitOn '/').filterMap stepOf =
      (front.splitOn '/').filterMap stepOf ++ (back.splitOn '/').filterMap stepOf := by
  rw [List.splitOn_append_cons_self, List.filterMap_append]

theorem stepsOf_absoluteText (names : List FileName) : stepsOf (absoluteText names) = names.map .name := by
  have hmap : (names.map fun name => name.text.toList) = (names.map Step.name).map stepText := by simp [stepText]
  rw [stepsOf, absoluteText, String.toList_ofList, hmap]
  refine (spelled_append [] _).trans ?_
  exact stepsOf_intercalate _

theorem isRooted_absoluteText (names : List FileName) : isRooted (absoluteText names) = true := by
  simp [isRooted, absoluteText]

theorem Volume.locate_absoluteText (vol : Volume) (names : List FileName) : vol.locate (absoluteText names) = vol.resolve names := by
  rw [locate, isRooted_absoluteText, if_pos rfl, stepsOf_absoluteText, reach_names vol.root_resolved, List.nil_append]

-- ---------------------------------------------------------------------------
-- A file in its directory
-- ---------------------------------------------------------------------------

theorem spelled_slashes (front : List Char) (k : Nat) :
    ((front ++ List.replicate k '/').splitOn '/').filterMap stepOf = (front.splitOn '/').filterMap stepOf := by
  induction k generalizing front with
  | zero => simp
  | succ k ih =>
    have hlast := spelled_append (front ++ List.replicate k '/') []
    rw [List.replicate_succ', ← List.append_assoc, hlast, ih]
    exact List.append_nil _

/-- A text is the directory, separators, and the name of the file. -/
theorem exists_parent (text : String) :
    ∃ parent k, text.toList = parent ++ List.replicate k '/' ++ (fileName text).toList ∧ '/' ∉ (fileName text).toList ∧
      (k = 0 → parent = []) ∧ parentPath text = if parent = [] ∧ k ≠ 0 then "/" else String.ofList parent := by
  have hwhole := List.takeWhile_append_dropWhile (p := (· ≠ '/')) (l := text.toList.reverse)
  have hfile : (fileName text).toList = (text.toList.reverse.takeWhile (· ≠ '/')).reverse := String.toList_ofList
  have hparent : parentPath text =
      if ((text.toList.reverse.dropWhile (· ≠ '/')).dropWhile (· = '/')).isEmpty then
        String.ofList ((text.toList.reverse.dropWhile (· ≠ '/')).take 1)
      else String.ofList ((text.toList.reverse.dropWhile (· ≠ '/')).dropWhile (· = '/')).reverse := rfl
  have hfirst : ∀ ch ∈ (text.toList.reverse.dropWhile (· ≠ '/')).head?, ch = '/' := by
    intro ch hch
    have hstop := List.head?_dropWhile_not (· ≠ '/') text.toList.reverse
    rw [Option.mem_def.mp hch] at hstop
    simpa using hstop
  rw [hparent, hfile]
  generalize text.toList.reverse.dropWhile (· ≠ '/') = dir at hwhole hfirst ⊢
  have hslashes : dir.takeWhile (· = '/') = List.replicate (dir.takeWhile (· = '/')).length '/' :=
    List.eq_replicate_of_mem fun ch hch => by simpa using List.mem_takeWhile_imp hch
  have hdir := List.takeWhile_append_dropWhile (p := (· = '/')) (l := dir)
  refine ⟨(dir.dropWhile (· = '/')).reverse, (dir.takeWhile (· = '/')).length, ?_, ?_, ?_, ?_⟩
  · rw [← List.reverse_replicate, ← hslashes, ← List.reverse_append, hdir, ← List.reverse_append, hwhole,
      List.reverse_reverse]
  · rw [List.mem_reverse]
    exact fun hslash => by simpa using List.mem_takeWhile_imp hslash
  · intro hzero
    cases dir with
    | nil => rfl
    | cons ch dir =>
      rw [hfirst ch rfl] at hzero
      simp at hzero
  · cases hrest : dir.dropWhile (· = '/') with
    | nil =>
      rw [hrest, List.append_nil] at hdir
      cases dir with
      | nil => rfl
      | cons ch dir =>
        rw [hdir, hfirst ch rfl]
        rfl
    | cons ch rest => simp

theorem Volume.locate_empty (vol : Volume) : vol.locate (String.ofList []) = vol.current := by
  rw [locate, isRooted, stepsOf, String.toList_ofList]
  rfl

theorem Volume.locate_slash (vol : Volume) : vol.locate "/" = [] := by
  have htext : "/".toList = ['/'] := rfl
  rw [locate, isRooted, stepsOf, htext]
  rfl

/-- The name of a file, read in its directory, denotes the file. -/
theorem Volume.locate_eq (vol : Volume) (text : String) :
    vol.locate text = vol.reach (vol.folder text) (stepsOf (fileName text)) := by
  obtain ⟨parent, k, htext, hfile, hbare, hparent⟩ := exists_parent text
  cases k with
  | zero =>
    rw [hbare rfl, List.replicate_zero, List.nil_append, List.nil_append] at htext
    have hrelative : isRooted text = false := by
      rw [isRooted, htext, beq_eq_false_iff_ne]
      intro hhead
      exact hfile (List.mem_of_mem_head? hhead)
    have hfolder : vol.folder text = vol.current := by
      rw [folder, hparent, if_neg fun h => h.2 rfl, hbare rfl]
      exact vol.locate_empty
    rw [locate, hrelative, hfolder, stepsOf, stepsOf, ← htext]
    rfl
  | succ k =>
    have hsteps : stepsOf text = (parent.splitOn '/').filterMap stepOf ++ stepsOf (fileName text) := by
      rw [stepsOf, htext, List.replicate_succ', ← List.append_assoc, List.append_assoc, List.singleton_append,
        spelled_append, spelled_slashes]
      rfl
    have hfolder : vol.folder text =
        vol.reach (if isRooted text then [] else vol.current) ((parent.splitOn '/').filterMap stepOf) := by
      rw [folder, hparent, locate]
      by_cases hroot : parent = []
      · have habsolute : isRooted text = true := by
          rw [isRooted, htext, hroot]
          rfl
        rw [if_pos (⟨hroot, Nat.succ_ne_zero k⟩ : parent = [] ∧ k + 1 ≠ 0), hroot, habsolute]
        exact vol.locate_slash
      · have habsolute : isRooted text = isRooted (String.ofList parent) := by
          rw [isRooted, isRooted, htext, String.toList_ofList, List.append_assoc,
            List.head?_append_of_ne_nil _ hroot]
        rw [if_neg fun h : parent = [] ∧ k + 1 ≠ 0 => hroot h.1, habsolute, stepsOf, String.toList_ofList]
    rw [hfolder, locate, hsteps, reach_append]

end Gentest.Codegen
