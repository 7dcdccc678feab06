import Gentest.Scan.ModuleNames
import Gentest.Scan.PhaseSimulation

/-!
# What the scan sees of a program
-/

namespace Gentest.Scan

open Gentest.Codegen (isSpace)

/-- The scan of a file delivers what phases 2 and 3 deliver but for the amount of white
space, and finds the module that they declare, with these answers to its conditions and
these macros of the command line. -/
def SeenAsCompiled (answers : Answers) (macros : MacroTable) (source : List Element) : Prop :=
  ∃ delivered, scannedLines answers macros (spelledText source) = some delivered ∧
    delivered.map Delivered.normalized = (phaseLines answers macros source).map Delivered.normalized ∧
    namedModuleName (delivered.filterMap Delivered.code?) =
      namedModuleName ((phaseLines answers macros source).filterMap Delivered.code?)

variable {answers : Answers} {source : List Element} {text : List Char}

-- ---------------------------------------------------------------------------
-- The end of the file
-- ---------------------------------------------------------------------------

theorem nextChar_newline (source : List Element) :
    nextChar (source ++ [.newline]) = nextChar source ∨ nextChar (source ++ [.newline]) = some '\n' := by
  induction source with
  | nil => exact .inr rfl
  | cons e source ih =>
    cases e with
    | splice blanks => exact ih
    | _ => exact .inl rfl

theorem Element.meets_newline {e : Element} (h : e.meets source = true) : e.meets (source ++ [.newline]) = true := by
  cases e with
  | code ch =>
    rw [Element.meets] at h ⊢
    obtain hnext | hnext := nextChar_newline source
    · rw [hnext, h]
    · rw [hnext]
      simp
  | lineComment text =>
    cases source with
    | nil => rfl
    | cons next source => exact h
  | _ => rfl

theorem wellLexed_newline (h : wellLexed source = true) : wellLexed (source ++ [.newline]) = true := by
  induction source with
  | nil => rfl
  | cons e source ih =>
    rw [wellLexed, Bool.and_eq_true, Bool.and_eq_true] at h
    rw [List.cons_append, wellLexed, h.1.1, Element.meets_newline h.1.2, ih h.2]
    rfl

theorem wellLexed_terminated (h : wellLexed source = true) : wellLexed (terminated source) = true := by
  unfold terminated
  split
  · exact h
  · exact wellLexed_newline h

theorem getLast?_terminated (source : List Element) : (terminated source).getLast?.all (· == .newline) = true := by
  unfold terminated
  split
  · assumption
  · rw [List.getLast?_concat]
    rfl

theorem getlines_newline (hne : text ≠ []) (hlast : text.getLast? ≠ some '\n') :
    getlines (text ++ ['\n']) = getlines text := by
  induction text with
  | nil => exact absurd rfl hne
  | cons ch text ih =>
    cases text with
    | nil =>
      have hch : ch ≠ '\n' := fun h => hlast (by rw [h]; rfl)
      rw [List.cons_append, getlines, if_neg hch, getlines, if_neg hch]
      rfl
    | cons next text =>
      rw [List.getLast?_cons_cons] at hlast
      have hcons : ∀ text text', getlines text = getlines text' → getlines (ch :: text) = getlines (ch :: text') := by
        intro text text' heq
        rw [getlines, getlines, heq]
      exact hcons _ _ (ih (List.cons_ne_nil _ _) hlast)

theorem getlines_empty_line (hlast : text.getLast? = some '\n') : getlines (text ++ ['\n']) = getlines text ++ [[]] := by
  obtain ⟨init, rfl⟩ := List.getLast?_eq_some_iff.mp hlast
  rw [List.append_assoc]
  exact getlines_append init ['\n']

/-- The scan is in a directive behind a line only if the line goes on. -/
theorem endLine_continuation {r : ScanRun} {out : List Char} (h : hasTrailingLineContinuation out = false)
    (inBlockComment : Bool) : (r.endLine answers out inBlockComment).state.inPreprocessorContinuation = false := by
  rw [← hasTrailing_trim] at h
  unfold ScanRun.endLine
  dsimp only
  split
  · rw [if_neg (by rw [h]; exact Bool.false_ne_true)]
    split
    · rfl
    · exact (handle_flags _ _ _ _).2
  · rename_i hnot
    rw [Bool.or_eq_true, not_or, Bool.not_eq_true] at hnot
    split <;> exact hnot.1

theorem readLine_nil {r : ScanRun} (h : r.state.inPreprocessorContinuation = false) :
    (r.readLine answers []).map (·.delivered) = some r.delivered := by
  have hstrip : stripCommentsForLineScan [] r.state.inBlockComment = ([], r.state.inBlockComment) := by
    cases r.state.inBlockComment <;> rfl
  rw [readLine_eq, hstrip, endLine_blank h fun _ hch => absurd hch List.not_mem_nil]
  rfl

theorem exists_foldlM_readLine (r : ScanRun) (lines : List (List Char)) :
    ∃ r', lines.foldlM (ScanRun.readLine answers) r = some r' := by
  induction lines generalizing r with
  | nil => exact ⟨r, rfl⟩
  | cons line lines ih =>
    rw [List.foldlM_cons, readLine_eq]
    exact ih _

theorem scannedLines_newline {macros : MacroTable} (hne : text ≠ [])
    (hends : ∀ line ∈ (getlines text).getLast?, ∀ inBlockComment,
      hasTrailingLineContinuation (stripCommentsForLineScan line inBlockComment).1 = false) :
    scannedLines answers macros (text ++ ['\n']) = scannedLines answers macros text := by
  unfold scannedLines
  by_cases hlast : text.getLast? = some '\n'
  · rw [getlines_empty_line hlast, List.foldlM_append]
    obtain ⟨init, rfl⟩ := List.getLast?_eq_some_iff.mp hlast
    obtain ⟨lines, line, hlines⟩ : ∃ lines line, getlines (init ++ ['\n']) = lines ++ [line] := by
      obtain hnil | ⟨lines, line, hlines⟩ := List.eq_nil_or_concat (getlines (init ++ ['\n']))
      · exact absurd hnil (getlines_ne_nil init)
      · exact ⟨lines, line, hlines.trans List.concat_eq_append⟩
    rw [hlines] at hends ⊢
    obtain ⟨r, hr⟩ := @exists_foldlM_readLine answers { state := { objectLikeMacros := macros } } lines
    have hcontinuation := @endLine_continuation answers r _ (hends line (by simp) r.state.inBlockComment)
      (stripCommentsForLineScan line r.state.inBlockComment).2
    have hline : (lines ++ [line]).foldlM (ScanRun.readLine answers) { state := { objectLikeMacros := macros } } =
        some (r.endLine answers (stripCommentsForLineScan line r.state.inBlockComment).1
          (stripCommentsForLineScan line r.state.inBlockComment).2) := by
      rw [List.foldlM_append, hr]
      exact (bind_pure _).trans (readLine_eq r line)
    have hempty : ∀ r : ScanRun, [[]].foldlM (ScanRun.readLine answers) r = r.readLine answers [] :=
      fun r => bind_pure (r.readLine answers [])
    rw [hline, Option.bind_eq_bind, Option.bind_some, hempty, readLine_nil hcontinuation]
    rfl
  · rw [getlines_newline hne hlast]

theorem scannedLines_terminated {macros : MacroTable} (hlexed : wellLexed source = true)
    (hends : ∀ line ∈ (getlines (spelledText source)).getLast?, ∀ inBlockComment,
      hasTrailingLineContinuation (stripCommentsForLineScan line inBlockComment).1 = false) :
    scannedLines answers macros (spelledText (terminated source)) = scannedLines answers macros (spelledText source) := by
  unfold terminated
  split
  · rfl
  · rename_i hlast
    have hne : source ≠ [] := by
      rintro rfl
      exact hlast rfl
    rw [spelledText_append]
    exact scannedLines_newline (spelledText_ne_nil hlexed hne) hends

-- ---------------------------------------------------------------------------
-- The scan and the phases
-- ---------------------------------------------------------------------------

theorem scannedLines_eq (macros : MacroTable) (text : List Char) :
    scannedLines answers macros text =
      (LineReading.finish answers { run := { state := { objectLikeMacros := macros } } } false text).map (·.delivered) := by
  unfold scannedLines LineReading.finish
  cases getlines text with
  | nil => rfl
  | cons line lines =>
    rw [List.foldlM_cons, readLine_eq]
    rfl

/-- Where the scan sees the elements as they are it sees the program that the compiler
sees. -/
theorem seen_as_compiled {macros : MacroTable} (hlexed : wellLexed source = true)
    (hplain : PlainSource answers macros source) : SeenAsCompiled answers macros source := by
  have hstart : Related answers .start { run := { state := { objectLikeMacros := macros } } }
      { scan := { objectLikeMacros := macros } } :=
    ⟨⟨⟨rfl, rfl, fun _ => rfl⟩, rfl, rfl, rfl, fun _ h => absurd h List.not_mem_nil⟩,
      fun _ h => absurd h List.not_mem_nil⟩
  obtain ⟨r, hrun, hdelivered⟩ := hplain.plain.run hstart (wellLexed_terminated hlexed) (by
    cases hlast : (terminated source).getLast? with
    | none => exact .inr ⟨List.getLast?_eq_none_iff.mp hlast, rfl⟩
    | some last =>
      have hall := getLast?_terminated source
      rw [hlast] at hall
      exact .inl (congrArg some (beq_iff_eq.mp hall)))
  refine ⟨r.delivered, ?_, hdelivered, namedModuleName_congr ?_⟩
  · rw [← scannedLines_terminated hlexed hplain.ends, scannedLines_eq, hrun]
    rfl
  · have hcode : ∀ delivered : List Delivered,
        (delivered.filterMap Delivered.code?).map normalizeScanDirectiveLine =
          (delivered.map Delivered.normalized).filterMap Delivered.code? := by
      intro delivered
      rw [List.map_filterMap, List.filterMap_map]
      refine List.filterMap_congr fun d _ => ?_
      cases d <;> rfl
    rw [hcode, hcode]
    exact congrArg _ hdelivered

def codeElements (line : String) : List Element :=
  line.toList.map (fun ch => if isSpace ch then .blank ch else .code ch) ++ [.newline]

/-- Comments before, behind and between tokens, and a directive of two lines. -/
def commentedSource : List Element :=
  [.blockComment "/* one\ntwo */".toList, .code '#', .code 'i', .code 'f', .blank ' ', .splice [], .code 'A',
    .lineComment "// three".toList, .newline] ++
    codeElements "export module a.b;" ++ [.literal false "\"#\"".toList, .blockComment "/**/".toList, .newline] ++
    codeElements "#else"

/-- A line of a group that is skipped, with a splice and the opener of a comment in a string. -/
def skippedLine : List Element :=
  [.code 'x', .blank ' ', .splice [], .literal false "\"//\"".toList]

theorem commented_seen :
    SeenAsCompiled (fun _ => some true) (fun _ => none)
      (commentedSource ++ (skippedLine ++ .newline :: (codeElements "#endif" ++ []))) := by
  refine seen_as_compiled (by decide +kernel) ⟨?_, by decide +kernel⟩
  refine @PlainFrom.of_modes _ _ _ .start _ _ (by decide +kernel) (by decide +kernel) ?_
  refine .skipped (by decide +kernel) (by decide) (by decide +kernel) (by decide +kernel) ?_
  exact @PlainFrom.of_modes _ _ _ .start _ _ (by decide +kernel) (by decide +kernel) .nil

def decoySource : List Element :=
  codeElements "auto s =" ++ [.literal false "\"/*\"".toList, .code ';', .newline] ++ codeElements "export module m;"

/-- The string takes the rest of the file with it, and the module is not found. -/
theorem decoy_unseen :
    wellLexed decoySource = true ∧ ¬SeenAsCompiled (fun _ => none) (fun _ => none) decoySource := by
  refine ⟨by decide +kernel, fun h => ?_⟩
  obtain ⟨delivered, hscan, -, hmodule⟩ := h
  have hlines : scannedLines (fun _ => none) (fun _ => none) (spelledText decoySource) =
      some [.code "auto s =".toList, .code ['"']] := by
    decide +kernel
  rw [hlines] at hscan
  cases hscan
  have hnone : namedModuleName ["auto s =".toList, ['"']] = none := by
    decide +kernel
  have hsome : namedModuleName ((phaseLines (fun _ => none) (fun _ => none) decoySource).filterMap Delivered.code?) =
      some ['m'] := by
    decide +kernel
  rw [hsome] at hmodule
  exact absurd (hnone.symm.trans hmodule) (by decide)

end Gentest.Scan
