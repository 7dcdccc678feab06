import Gentest.Scan.TranslationPhases

/-!
# Reading a source

The scan reads physical lines. `LineReading` is where it is between two elements: what is
delivered so far, and what it has put out for the line it is in. Where the scan sees the
elements as they are, reading the text is taking the elements one at a time.
-/

namespace Gentest.Scan

open Gentest.Codegen (isSpace)

-- ---------------------------------------------------------------------------
-- Plain elements
-- ---------------------------------------------------------------------------

def opensComment : List Char → Bool
  | [] => false
  | ch :: text => ch == '/' && text.head?.any ['/', '*'].contains || opensComment text

/-- The scan sees the element as it is: no comment opens in a literal, no literal goes on
in the next line, and no splice is in a comment to the end of the line or in the marks of
another comment. -/
def Element.plain : Element → Bool
  | .literal _ text => !opensComment text && !text.contains '\n'
  | .digraph text => text == ['%', ':']
  | .lineComment text => isLineComment text
  | .blockComment text => isBlockComment text
  | _ => true

-- ---------------------------------------------------------------------------
-- Lines
-- ---------------------------------------------------------------------------

variable (answers : Answers)

/-- The state once a line is read to its end. -/
def ScanStreamState.nextLine (s : ScanStreamState) (inBlockComment : Bool) : ScanStreamState :=
  { s with currentLine := s.currentLine + 1, inBlockComment := inBlockComment }

/-- The end of a line, once its comments are stripped. -/
def ScanRun.endLine (r : ScanRun) (out : List Char) (inBlockComment : Bool) : ScanRun :=
  let trimmed := trimAsciiView out
  let s := r.state.nextLine inBlockComment
  if s.inPreprocessorContinuation || trimmed.head? == some '#' then
    let s := s.appendPending trimmed
    if hasTrailingLineContinuation trimmed then
      { r with
        state :=
          { s with
            inPreprocessorContinuation := true
            pendingPreprocessor := stripTrailingLineContinuation s.pendingPreprocessor } }
    else
      let s := { s with inPreprocessorContinuation := false }
      if s.pendingPreprocessor.isEmpty then { r with state := s }
      else
        { state :=
            { handlePreprocessorLogicalLine s.pendingPreprocessor (answers (handled r.delivered))
                s.pendingPreprocessorStartLine s with
              pendingPreprocessor := []
              pendingPreprocessorStartLine := 0 }
          delivered := r.delivered ++ [.directive s.pendingPreprocessor] }
  else if s.currentBranchActive && !trimmed.isEmpty then ⟨s, r.delivered ++ [.code trimmed]⟩
  else { r with state := s }

structure LineReading where
  run : ScanRun := {}
  out : List Char := []

def LineReading.put (c : LineReading) (text : List Char) : LineReading := { c with out := c.out ++ text }

def LineReading.gap (c : LineReading) : LineReading := { c with out := appendGap c.out }

def LineReading.endLine (c : LineReading) (inBlockComment : Bool) : LineReading :=
  { run := c.run.endLine answers c.out inBlockComment }

def LineReading.through (c : LineReading) : List Char → LineReading
  | [] => c
  | ch :: text => (if ch = '\n' then c.endLine answers true else c).through text

def LineReading.step (c : LineReading) : Element → LineReading
  | .blank ch | .code ch => c.put [ch]
  | .literal _ text | .digraph text => c.put text
  | .lineComment _ => c
  | .blockComment text => ((c.gap).through answers text).gap
  | .splice blanks => (c.put ('\\' :: blanks)).endLine answers false
  | .newline => c.endLine answers false

def LineReading.finish (c : LineReading) (inBlockComment : Bool) (text : List Char) : Option ScanRun :=
  match getlines text with
  | [] => some c.run
  | line :: lines =>
    let stripped := stripCommentsFrom inBlockComment c.out line
    lines.foldlM (ScanRun.readLine answers) (c.run.endLine answers stripped.1 stripped.2)

variable {answers} {r : ScanRun} {c : LineReading} {ch : Char} {text rest line : List Char} {source : List Element}

-- ---------------------------------------------------------------------------
-- The end of a line
-- ---------------------------------------------------------------------------

theorem handleLogicalLine_const (s : ScanStreamState) (rawLine : List Char) (answer : Option Bool) (n : Nat) :
    s.handleLogicalLine (fun _ _ => some answer) rawLine n =
      some (handlePreprocessorLogicalLine rawLine answer n s) := by
  unfold ScanStreamState.handleLogicalLine
  split
  · rename_i hnone
    refine congrArg some ?_
    unfold ScanStreamState.conditionOf at hnone
    unfold handlePreprocessorLogicalLine
    split at hnone
    · cases hnone
    · rename_i rest hdirective
      rw [hdirective]
      unfold handleElif
      cases hframes : s.conditionals with
      | nil => rfl
      | cons frame outer =>
        rw [hframes] at hnone
        cases hnone
    · rename_i hif helif
      cases hdirective : directiveOf rawLine with
      | none => rfl
      | some directive =>
        obtain ⟨keyword, rest⟩ := directive
        cases keyword with
        | if_ => exact absurd hdirective (hif rest)
        | elif => exact absurd hdirective (helif rest)
        | _ => rfl
  · rfl

theorem readLine_eq (r : ScanRun) (rawLine : List Char) :
    r.readLine answers rawLine =
      some (r.endLine answers (stripCommentsForLineScan rawLine r.state.inBlockComment).1
        (stripCommentsForLineScan rawLine r.state.inBlockComment).2) := by
  unfold ScanRun.readLine processScanPhysicalLine ScanRun.endLine ScanStreamState.delivers ScanStreamState.completed
    ScanStreamState.readLine ScanStreamState.processDirective ScanStreamState.nextLine
  dsimp only
  generalize stripCommentsForLineScan rawLine r.state.inBlockComment = stripped
  generalize trimAsciiView stripped.1 = trimmed
  generalize ScanStreamState.appendPending _ trimmed = s
  by_cases hdirective : (r.state.inPreprocessorContinuation || trimmed.head? == some '#') = true
  · simp only [if_pos hdirective]
    by_cases hcontinued : hasTrailingLineContinuation trimmed = true
    · simp [hcontinued]
    · by_cases hempty : s.pendingPreprocessor.isEmpty = true
      · simp [hcontinued, hempty]
      · simp [hcontinued, hempty, handleLogicalLine_const]
  · simp only [if_neg hdirective]
    by_cases hactive : r.state.currentBranchActive = true
    · cases trimmed with
      | nil => simp [hactive]
      | cons ch rest => simp [hactive]
    · simp [hactive]

theorem warn_flags (keyword : String) (expr : List Char) (n : Nat) (s : ScanStreamState) :
    (warnUnknownPreprocessorCondition keyword expr n s).inBlockComment = s.inBlockComment ∧
      (warnUnknownPreprocessorCondition keyword expr n s).inPreprocessorContinuation = s.inPreprocessorContinuation := by
  unfold warnUnknownPreprocessorCondition
  dsimp only
  split <;> exact ⟨rfl, rfl⟩

/-- A directive does not change where the scan is in its lines. -/
theorem handle_flags (rawLine : List Char) (evaluated : Option Bool) (n : Nat) (s : ScanStreamState) :
    (handlePreprocessorLogicalLine rawLine evaluated n s).inBlockComment = s.inBlockComment ∧
      (handlePreprocessorLogicalLine rawLine evaluated n s).inPreprocessorContinuation =
        s.inPreprocessorContinuation := by
  unfold handlePreprocessorLogicalLine
  split
  · exact ⟨rfl, rfl⟩
  · unfold handleIf
    dsimp only
    split
    · exact warn_flags _ _ _ _
    · exact ⟨rfl, rfl⟩
  · exact ⟨rfl, rfl⟩
  · exact ⟨rfl, rfl⟩
  · unfold handleElif
    split
    · exact ⟨rfl, rfl⟩
    · dsimp only
      split
      · exact warn_flags _ _ _ _
      · exact ⟨rfl, rfl⟩
  · unfold handleElse
    split <;> exact ⟨rfl, rfl⟩
  · exact ⟨rfl, rfl⟩
  · split
    · unfold handleDefine
      split
      · exact ⟨rfl, rfl⟩
      · dsimp only
        split <;> exact ⟨rfl, rfl⟩
    · exact ⟨rfl, rfl⟩
  · split
    · unfold handleUndef
      split <;> exact ⟨rfl, rfl⟩
    · exact ⟨rfl, rfl⟩
  · exact ⟨rfl, rfl⟩

theorem appendPending_inBlockComment (s : ScanStreamState) (trimmed : List Char) :
    (s.appendPending trimmed).inBlockComment = s.inBlockComment := by
  unfold ScanStreamState.appendPending
  split <;> rfl

theorem endLine_inBlockComment (r : ScanRun) (out : List Char) (inBlockComment : Bool) :
    (r.endLine answers out inBlockComment).state.inBlockComment = inBlockComment := by
  unfold ScanRun.endLine
  dsimp only
  split
  · split
    · exact appendPending_inBlockComment _ _
    · split
      · exact appendPending_inBlockComment _ _
      · rw [(handle_flags _ _ _ _).1]
        exact appendPending_inBlockComment _ _
  · split <;> rfl

-- ---------------------------------------------------------------------------
-- Reading characters
-- ---------------------------------------------------------------------------

theorem getlines_cons (hch : ch ≠ '\n') (hrest : rest ≠ []) :
    ∃ line lines, getlines rest = line :: lines ∧ getlines (ch :: rest) = (ch :: line) :: lines ∧
      ∀ next, line.head? = some next → rest.head? = some next := by
  cases rest with
  | nil => exact absurd rfl hrest
  | cons next rest =>
    by_cases hnext : next = '\n'
    · refine ⟨[], getlines rest, ?_, ?_, fun _ h => (nomatch h)⟩
      · rw [getlines, if_pos hnext]
      · rw [getlines, if_neg hch, getlines, if_pos hnext]
    · cases hlines : getlines rest with
      | nil =>
        refine ⟨[next], [], ?_, ?_, fun _ h => h⟩
        · rw [getlines, if_neg hnext, hlines]
        · rw [getlines, if_neg hch, getlines, if_neg hnext, hlines]
      | cons line lines =>
        refine ⟨next :: line, lines, ?_, ?_, fun _ h => h⟩
        · rw [getlines, if_neg hnext, hlines]
        · rw [getlines, if_neg hch, getlines, if_neg hnext, hlines]

theorem finish_cons {inBlockComment inBlockComment' : Bool} {out : List Char} (hch : ch ≠ '\n') (hrest : rest ≠ [])
    (hstrip : ∀ line, (∀ next, line.head? = some next → rest.head? = some next) →
      stripCommentsFrom inBlockComment c.out (ch :: line) = stripCommentsFrom inBlockComment' out line) :
    c.finish answers inBlockComment (ch :: rest) = LineReading.finish answers { c with out } inBlockComment' rest := by
  obtain ⟨line, lines, hlines, hcons, hhead⟩ := getlines_cons hch hrest
  unfold LineReading.finish
  rw [hcons, hlines]
  dsimp only
  rw [hstrip line hhead]

theorem finish_newline (c : LineReading) (inBlockComment : Bool) (rest : List Char) :
    c.finish answers inBlockComment ('\n' :: rest) =
      (c.endLine answers inBlockComment).finish answers inBlockComment rest := by
  unfold LineReading.finish LineReading.endLine
  rw [getlines, if_pos rfl]
  dsimp only
  rw [show stripCommentsFrom inBlockComment c.out [] = (c.out, inBlockComment) by cases inBlockComment <;> rfl]
  cases getlines rest with
  | nil => rfl
  | cons line lines =>
    rw [List.foldlM_cons, readLine_eq, endLine_inBlockComment]
    rfl

theorem finish_letter (hch : ch ≠ '\n') (hrest : rest ≠ [])
    (hslash : ch = '/' → ∀ next ∈ rest.head?, next ≠ '/' ∧ next ≠ '*') :
    c.finish answers false (ch :: rest) = (c.put [ch]).finish answers false rest := by
  refine finish_cons hch hrest fun line hhead => ?_
  rw [stripCommentsFrom]
  · intro line' hch hline
    exact (hslash hch '*' (hhead '*' (by rw [hline]; rfl))).2 rfl
  · intro line' hch hline
    exact (hslash hch '/' (hhead '/' (by rw [hline]; rfl))).1 rfl

theorem finish_open (hrest : rest ≠ []) :
    c.finish answers false ('/' :: '*' :: rest) = c.gap.finish answers true rest := by
  obtain ⟨line, lines, hlines, hcons, -⟩ := getlines_cons (show '*' ≠ '\n' by decide) hrest
  obtain ⟨line', lines', hlines', hcons', -⟩ := getlines_cons (show '/' ≠ '\n' by decide) (List.cons_ne_nil '*' rest)
  rw [hcons] at hlines'
  obtain ⟨rfl, rfl⟩ := List.cons.inj hlines'
  unfold LineReading.finish
  rw [hcons', hlines]
  rfl

theorem finish_close (hrest : rest ≠ []) :
    c.finish answers true ('*' :: '/' :: rest) = c.gap.finish answers false rest := by
  obtain ⟨line, lines, hlines, hcons, -⟩ := getlines_cons (show '/' ≠ '\n' by decide) hrest
  obtain ⟨line', lines', hlines', hcons', -⟩ := getlines_cons (show '*' ≠ '\n' by decide) (List.cons_ne_nil '/' rest)
  rw [hcons] at hlines'
  obtain ⟨rfl, rfl⟩ := List.cons.inj hlines'
  unfold LineReading.finish
  rw [hcons', hlines]
  rfl

theorem finish_skip (hch : ch ≠ '\n') (hrest : rest ≠ []) (hclose : ch = '*' → rest.head? ≠ some '/') :
    c.finish answers true (ch :: rest) = c.finish answers true rest := by
  refine finish_cons hch hrest fun line hhead => ?_
  rw [stripCommentsFrom]
  intro line' hch hline
  exact hclose hch (hhead '/' (by rw [hline]; rfl))

-- ---------------------------------------------------------------------------
-- Reading elements
-- ---------------------------------------------------------------------------

theorem finish_text (hrest : rest ≠ []) (hopens : opensComment text = false) (hline : text.contains '\n' = false)
    (hlast : ∀ ch ∈ text.getLast?, ch ≠ '/') :
    c.finish answers false (text ++ rest) = (c.put text).finish answers false rest := by
  induction text generalizing c with
  | nil =>
    unfold LineReading.put
    rw [List.append_nil]
    rfl
  | cons ch text ih =>
    rw [opensComment, Bool.or_eq_false_iff] at hopens
    rw [List.contains_cons, Bool.or_eq_false_iff] at hline
    have hch : ch ≠ '\n' := fun h => by rw [h] at hline; exact absurd hline.1 (by decide)
    have hslash : ch = '/' → ∀ next ∈ (text ++ rest).head?, next ≠ '/' ∧ next ≠ '*' := by
      intro heq next hnext
      cases text with
      | nil => exact absurd heq (hlast ch rfl)
      | cons first text =>
        obtain rfl : first = next := Option.some.inj hnext
        have hfirst := hopens.1
        rw [heq] at hfirst
        constructor
        · rintro rfl
          simp at hfirst
        · rintro rfl
          simp at hfirst
    rw [List.cons_append, finish_letter hch (by simp [hrest]) hslash, ih hopens.2 hline.2]
    · unfold LineReading.put
      rw [List.append_assoc]
      rfl
    · intro last hmem
      cases text with
      | nil => cases hmem
      | cons first text => exact hlast last hmem

theorem finish_comment (hrest : rest ≠ []) (hcloses : closesAtEnd text = true) :
    c.finish answers true (text ++ rest) = ((c.through answers text).gap).finish answers false rest := by
  fun_induction closesAtEnd text generalizing c with
  | case1 => cases hcloses
  | case2 after =>
    rw [List.isEmpty_iff.mp hcloses]
    exact finish_close hrest
  | case3 ch text hclose ih =>
    by_cases hch : ch = '\n'
    · rw [hch, List.cons_append, finish_newline, ih hcloses, LineReading.through, if_pos rfl]
    · rw [List.cons_append, finish_skip hch (by simp [hrest]), ih hcloses, LineReading.through, if_neg hch]
      intro hstar hhead
      cases text with
      | nil => cases hcloses
      | cons next text =>
        obtain rfl : next = '/' := Option.some.inj hhead
        exact hclose text hstar rfl

theorem getlines_line (hline : text.contains '\n' = false) (rest : List Char) :
    getlines (text ++ '\n' :: rest) = text :: getlines rest := by
  induction text with
  | nil => rw [List.nil_append, getlines, if_pos rfl]
  | cons ch text ih =>
    rw [List.contains_cons, Bool.or_eq_false_iff] at hline
    have hch : ch ≠ '\n' := fun h => by rw [h] at hline; exact absurd hline.1 (by decide)
    rw [List.cons_append, getlines, if_neg hch, ih hline.2]

theorem finish_lineComment (hcomment : isLineComment text = true) (rest : List Char) :
    c.finish answers false (text ++ '\n' :: rest) = c.finish answers false ('\n' :: rest) := by
  unfold isLineComment at hcomment
  rw [Bool.and_eq_true, beq_iff_eq, Bool.not_eq_true'] at hcomment
  obtain ⟨hmarks, hline⟩ := hcomment
  obtain ⟨body, rfl⟩ : ∃ body, text = '/' :: '/' :: body :=
    ⟨text.drop 2, (List.take_append_drop 2 text).symm.trans (by rw [hmarks]; rfl)⟩
  unfold LineReading.finish
  rw [getlines_line hline, getlines, if_pos rfl]
  rfl

theorem exists_blockComment (h : isBlockComment text = true) :
    ∃ body, text = '/' :: '*' :: body ∧ closesAtEnd body = true := by
  unfold isBlockComment at h
  rw [Bool.and_eq_true, beq_iff_eq] at h
  exact ⟨text.drop 2, (List.take_append_drop 2 text).symm.trans (by rw [h.1]; rfl), h.2⟩

theorem Element.spelled_ne_nil {e : Element} (h : e.wellFormed = true) : e.spelled ≠ [] := by
  cases e with
  | blank ch => exact List.cons_ne_nil _ _
  | code ch => exact List.cons_ne_nil _ _
  | splice blanks => exact List.cons_ne_nil _ _
  | newline => exact List.cons_ne_nil _ _
  | literal raw text =>
    rintro rfl
    cases h
  | digraph text =>
    rintro rfl
    cases h
  | lineComment text =>
    rintro rfl
    cases h
  | blockComment text =>
    rintro rfl
    cases h

theorem spelledText_ne_nil (hlexed : wellLexed source = true) (hne : source ≠ []) : spelledText source ≠ [] := by
  cases source with
  | nil => exact absurd rfl hne
  | cons e source =>
    rw [wellLexed, Bool.and_eq_true, Bool.and_eq_true] at hlexed
    exact fun h => Element.spelled_ne_nil hlexed.1.1 (List.append_eq_nil_iff.mp h).1

theorem next_of_slash (hlexed : wellLexed source = true) (hmeets : Element.meets (.code '/') source = true) :
    ∀ next ∈ (spelledText source).head?, next ≠ '/' ∧ next ≠ '*' := by
  cases source with
  | nil => exact fun _ h => (nomatch h)
  | cons e source =>
    rw [wellLexed, Bool.and_eq_true, Bool.and_eq_true] at hlexed
    have hhead : (spelledText (e :: source)).head? = e.spelled.head? := by
      obtain ⟨ch, text, hspelled⟩ := List.exists_cons_of_ne_nil (Element.spelled_ne_nil hlexed.1.1)
      rw [spelledText, List.flatMap_cons, hspelled]
      rfl
    rw [hhead]
    intro next hnext
    cases e with
    | splice blanks =>
      obtain rfl : '\\' = next := Option.some.inj hnext
      decide
    | _ =>
      simp only [Element.meets, nextChar, Option.mem_def.mp hnext] at hmeets
      constructor
      · rintro rfl
        exact absurd hmeets (by decide)
      · rintro rfl
        exact absurd hmeets (by decide)

theorem opensComment_eq_false (h : ∀ ch ∈ text, ch ≠ '/') : opensComment text = false := by
  induction text with
  | nil => rfl
  | cons ch text ih =>
    rw [opensComment, ih fun ch hch => h ch (.tail _ hch), Bool.or_false, Bool.and_eq_false_imp]
    exact fun hch => absurd (beq_iff_eq.mp hch) (h ch (.head _))

theorem blanks_of_splice {blanks : List Char} (h : Element.wellFormed (.splice blanks) = true) :
    ∀ ch ∈ blanks, isSpace ch = true ∧ ch ≠ '\n' := by
  intro ch hch
  have hblank := List.all_eq_true.mp h ch hch
  rwa [Bool.and_eq_true, bne_iff_ne] at hblank

theorem LineReading.through_slash_star (body : List Char) :
    c.through answers ('/' :: '*' :: body) = c.through answers body := by
  rw [LineReading.through, if_neg (by decide), LineReading.through, if_neg (by decide)]

theorem finish_element {e : Element} (hlexed : wellLexed (e :: source) = true) (hplain : e.plain = true)
    (hend : (e :: source).getLast? = some .newline) :
    c.finish answers false (spelledText (e :: source)) =
      (c.step answers e).finish answers false (spelledText source) := by
  rw [wellLexed, Bool.and_eq_true, Bool.and_eq_true] at hlexed
  obtain ⟨⟨hformed, hmeets⟩, hlexed⟩ := hlexed
  have hrest : e ≠ .newline → spelledText source ≠ [] := by
    intro he
    refine spelledText_ne_nil hlexed ?_
    rintro rfl
    exact he (Option.some.inj hend)
  rw [show spelledText (e :: source) = e.spelled ++ spelledText source from List.flatMap_cons]
  cases e with
  | blank ch =>
    simp only [Element.wellFormed, Bool.and_eq_true, bne_iff_ne] at hformed
    refine finish_letter hformed.2 (hrest (by simp)) ?_
    rintro rfl
    cases hformed.1
  | code ch =>
    simp only [Element.wellFormed, Bool.and_eq_true, Bool.not_eq_true'] at hformed
    refine finish_letter ?_ (hrest (by simp)) ?_
    · rintro rfl
      cases hformed.1
    · rintro rfl
      exact next_of_slash hlexed hmeets
  | literal raw text =>
    simp only [Element.plain, Bool.and_eq_true, Bool.not_eq_true'] at hplain
    simp only [Element.wellFormed, Bool.and_eq_true] at hformed
    refine finish_text (hrest (by simp)) hplain.1 hplain.2 ?_
    rintro ch hch rfl
    have hlast : text.getLast? = some '/' := hch
    rw [hlast] at hformed
    exact absurd hformed.2 (by decide)
  | digraph text =>
    obtain rfl : text = ['%', ':'] := beq_iff_eq.mp hplain
    exact finish_text (hrest (by simp)) (by decide) (by decide) (by decide)
  | lineComment text =>
    cases source with
    | nil => cases hend
    | cons next source =>
      obtain rfl : next = .newline := by simpa [Element.meets] using hmeets
      exact finish_lineComment hplain _
  | blockComment text =>
    obtain ⟨body, rfl, hcloses⟩ := exists_blockComment hplain
    have hne := hrest (by simp)
    rw [LineReading.step, LineReading.through_slash_star, ← finish_comment hne hcloses]
    exact finish_open (by simp [hne])
  | splice blanks =>
    have hblanks := blanks_of_splice hformed
    have hmem : ∀ ch ∈ '\\' :: blanks, ch ≠ '/' ∧ ch ≠ '\n' := by
      intro ch hch
      obtain rfl | hch := List.mem_cons.mp hch
      · decide
      · refine ⟨?_, (hblanks ch hch).2⟩
        rintro rfl
        cases (hblanks _ hch).1
    rw [Element.spelled, List.append_assoc]
    refine (finish_text (List.cons_ne_nil _ _) (opensComment_eq_false fun ch h => (hmem ch h).1) ?_
      fun ch h => (hmem ch (List.mem_of_getLast? h)).1).trans (finish_newline _ false _)
    exact Bool.eq_false_iff.mpr fun h => (hmem _ (List.contains_iff_mem.mp h)).2 rfl
  | newline => exact finish_newline c false _

end Gentest.Scan
