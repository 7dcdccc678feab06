import Gentest.Runner.StatusRows
import Mathlib.Logic.Function.Basic

/-!
# Drawing and erasing the status block

A terminal shows the last rows of a page. `draw_terminal_block` puts each line on a row of
its own and `erase_terminal_block` goes back over as many rows as there are lines. A line
that fits does not wrap, so the rows that are erased are those that were drawn, as long as
none of them left the terminal.
-/

namespace Gentest.Runner

open Utf8

-- ---------------------------------------------------------------------------
-- Terminals
-- ---------------------------------------------------------------------------

/-- Rows are counted from the first one of the page; the terminal shows them from `top`
on. A cell holds a code point. -/
structure Terminal where
  width : Nat
  height : Nat
  page : Nat → Nat → Option Nat
  top : Nat
  row : Nat
  col : Nat

/-- What is written: `\\r`, `\\n`, `ESC [ 2 K`, `ESC [ n A`, `ESC [ n B` and lines. -/
inductive Output where
  | carriageReturn
  | lineFeed
  | eraseLine
  | cursorUp (n : Nat)
  | cursorDown (n : Nat)
  | text (line : List UInt8)

namespace Terminal

def feed (t : Terminal) : Terminal :=
  { t with row := t.row + 1, top := if t.row + 1 < t.top + t.height then t.top else t.top + 1 }

/-- A code point that no longer fits goes to the next row; one without a width joins the
cell before. -/
def print (t : Terminal) (span : Utf8Span) : Terminal :=
  if span.width = 0 then t
  else
    let t := if t.width < t.col + span.width then { t.feed with col := 0 } else t
    { t with
      page := Function.update t.page t.row (Function.update (t.page t.row) t.col (some span.cp))
      col := t.col + span.width }

def apply (t : Terminal) : Output → Terminal
  | .carriageReturn => { t with col := 0 }
  | .lineFeed => t.feed
  | .eraseLine => { t with page := Function.update t.page t.row fun _ => none }
  | .cursorUp n => { t with row := max t.top (t.row - n) }
  | .cursorDown n => { t with row := min (t.top + t.height - 1) (t.row + n) }
  | .text line => (utf8Spans (stripEscapes line)).foldl print t

def run (t : Terminal) (outputs : List Output) : Terminal := outputs.foldl apply t

structure Shown (t : Terminal) : Prop where
  low : t.top ≤ t.row
  high : t.row < t.top + t.height

end Terminal

-- ---------------------------------------------------------------------------
-- The block on the terminal
-- ---------------------------------------------------------------------------

def drawTerminalBlock (lines : List (List UInt8)) : List Output :=
  lines.flatMap fun line => [.carriageReturn, .eraseLine, .text line, .lineFeed]

def eraseTerminalBlock (visibleLines : Nat) : List Output :=
  if visibleLines = 0 then []
  else
    [.carriageReturn, .cursorUp visibleLines] ++
      ((List.range visibleLines).flatMap fun i =>
        [.carriageReturn, .eraseLine] ++ if i + 1 < visibleLines then [.cursorDown 1] else []) ++
      if 1 < visibleLines then [.cursorUp (visibleLines - 1)] else []

structure Screen where
  visibleLines : Nat
  terminal : Terminal

def redrawTerminal (s : Screen) (lines : List (List UInt8)) : Screen where
  visibleLines := lines.length
  terminal := (s.terminal.run (eraseTerminalBlock s.visibleLines)).run (drawTerminalBlock lines)

-- ---------------------------------------------------------------------------
-- Lines do not wrap
-- ---------------------------------------------------------------------------

namespace Terminal

/-- The same terminal apart from the cursor's column and the cells of its row. -/
structure SameRow (t t' : Terminal) : Prop where
  width : t'.width = t.width
  height : t'.height = t.height
  top : t'.top = t.top
  row : t'.row = t.row
  page : ∀ r, r ≠ t.row → t'.page r = t.page r

theorem SameRow.refl (t : Terminal) : SameRow t t := ⟨rfl, rfl, rfl, rfl, fun _ _ => rfl⟩

theorem SameRow.trans {a b c : Terminal} (h : SameRow a b) (h' : SameRow b c) : SameRow a c where
  width := h'.width.trans h.width
  height := h'.height.trans h.height
  top := h'.top.trans h.top
  row := h'.row.trans h.row
  page := fun r hr => (h'.page r (h.row ▸ hr)).trans (h.page r hr)

theorem print_sameRow {t : Terminal} (span : Utf8Span) (h : t.col + span.width ≤ t.width) :
    SameRow t (t.print span) ∧ (t.print span).col = t.col + span.width := by
  unfold print
  split
  · rename_i hzero
    exact ⟨.refl t, by omega⟩
  · rw [if_neg (Nat.not_lt.mpr h)]
    exact ⟨⟨rfl, rfl, rfl, rfl, fun r hr => Function.update_of_ne hr ..⟩, rfl⟩

theorem foldl_print_sameRow (spans : List Utf8Span) {t : Terminal}
    (h : t.col + (spans.map (·.width)).sum ≤ t.width) : SameRow t (spans.foldl print t) := by
  induction spans generalizing t with
  | nil => exact .refl t
  | cons span spans ih =>
    rw [List.map_cons, List.sum_cons] at h
    obtain ⟨hsame, hcol⟩ := print_sameRow span (t := t) (by omega)
    refine hsame.trans (ih ?_)
    rw [hcol, hsame.width]
    omega

theorem text_sameRow {t : Terminal} {line : List UInt8} (h : displayWidth (stripEscapes line) ≤ t.width) :
    SameRow t ((t.apply .carriageReturn).apply (.text line)) := by
  have hcol : SameRow t (t.apply .carriageReturn) := ⟨rfl, rfl, rfl, rfl, fun _ _ => rfl⟩
  refine hcol.trans (foldl_print_sameRow _ ?_)
  rw [← displayWidth]
  exact (Nat.zero_add _).trans_le h

-- ---------------------------------------------------------------------------
-- Drawing
-- ---------------------------------------------------------------------------

/-- The terminal after `n` rows were drawn from the cursor on. -/
structure Drawn (t : Terminal) (n : Nat) (t' : Terminal) : Prop where
  width : t'.width = t.width
  height : t'.height = t.height
  row : t'.row = t.row + n
  top : t'.top = max t.top (t.row + n + 1 - t.height)
  page : ∀ r, r < t.row ∨ t.row + n ≤ r → t'.page r = t.page r

theorem run_append (t : Terminal) (front behind : List Output) : t.run (front ++ behind) = (t.run front).run behind :=
  List.foldl_append

theorem draw_line {t : Terminal} {line : List UInt8} (hshown : t.Shown) (h : displayWidth (stripEscapes line) ≤ t.width) :
    Drawn t 1 (t.run [.carriageReturn, .eraseLine, .text line, .lineFeed]) := by
  have herase : SameRow t ((t.apply .carriageReturn).apply .eraseLine) :=
    ⟨rfl, rfl, rfl, rfl, fun r hr => Function.update_of_ne hr ..⟩
  have htext := text_sameRow (t := (t.apply .carriageReturn).apply .eraseLine) (herase.width ▸ h)
  have hsame : SameRow t (((t.apply .carriageReturn).apply .eraseLine).apply (.text line)) := herase.trans htext
  obtain ⟨hlow, hhigh⟩ := hshown
  refine ⟨hsame.width, hsame.height, congrArg (· + 1) hsame.row, ?_, fun r hr => ?_⟩
  · have htop : (t.run [.carriageReturn, .eraseLine, .text line, .lineFeed]).top =
        if t.row + 1 < t.top + t.height then t.top else t.top + 1 := by
      rw [← hsame.row, ← hsame.top, ← hsame.height]
      rfl
    rw [htop]
    split <;> omega
  · exact hsame.page r (by omega)

theorem draw_block (lines : List (List UInt8)) {t : Terminal} (hshown : t.Shown)
    (h : ∀ line ∈ lines, displayWidth (stripEscapes line) ≤ t.width) :
    Drawn t lines.length (t.run (drawTerminalBlock lines)) := by
  induction lines generalizing t with
  | nil =>
    obtain ⟨hlow, hhigh⟩ := hshown
    exact ⟨rfl, rfl, rfl, by simp [drawTerminalBlock, run]; omega, fun _ _ => rfl⟩
  | cons line lines ih =>
    obtain ⟨hline, hmore⟩ := List.forall_mem_cons.mp h
    obtain ⟨hwidth, hheight, hrow, htop, hpage⟩ := draw_line hshown hline
    obtain ⟨hlow, hhigh⟩ := hshown
    have hlast := ih (t := t.run [.carriageReturn, .eraseLine, .text line, .lineFeed]) ⟨by omega, by omega⟩
      (hwidth.symm ▸ hmore)
    have hrun : t.run (drawTerminalBlock (line :: lines)) =
        (t.run [.carriageReturn, .eraseLine, .text line, .lineFeed]).run (drawTerminalBlock lines) := run_append ..
    rw [hrun, List.length_cons]
    refine ⟨hlast.width.trans hwidth, hlast.height.trans hheight, ?_, ?_, fun r hr => ?_⟩
    · rw [hlast.row, hrow]
      omega
    · rw [hlast.top, hrow, htop, hheight]
      omega
    · rw [hlast.page r (by omega), hpage r (by omega)]

-- ---------------------------------------------------------------------------
-- Erasing
-- ---------------------------------------------------------------------------

/-- The terminal with rows from `first` on blank and the cursor on the first of them. -/
structure Erased (t : Terminal) (first n : Nat) (t' : Terminal) : Prop where
  width : t'.width = t.width
  height : t'.height = t.height
  top : t'.top = t.top
  row : t'.row = first
  blank : ∀ r, first ≤ r → r < first + n → t'.page r = fun _ => none
  page : ∀ r, r < first ∨ first + n ≤ r → t'.page r = t.page r

/-- The loop: after so many rounds so many rows are blank and the cursor is on the next
one, but for the last round. -/
theorem erase_rounds {n : Nat} (t : Terminal) (hroom : t.row + n ≤ t.top + t.height) {k : Nat} (hk : k ≤ n) :
    ∃ t', t.run ((List.range k).flatMap fun i =>
        [.carriageReturn, .eraseLine] ++ if i + 1 < n then [.cursorDown 1] else []) = t' ∧
      t'.width = t.width ∧ t'.height = t.height ∧ t'.top = t.top ∧
        t'.row = (if k < n then t.row + k else t.row + (n - 1)) ∧
          (∀ r, t.row ≤ r → r < t.row + k → t'.page r = fun _ => none) ∧
            ∀ r, r < t.row ∨ t.row + k ≤ r → t'.page r = t.page r := by
  induction k with
  | zero =>
    refine ⟨t, rfl, rfl, rfl, rfl, ?_, fun r hlow hhigh => by omega, fun _ _ => rfl⟩
    split <;> omega
  | succ k ih =>
    obtain ⟨t', hrun, hwidth, hheight, htop, hrow, hblank, hpage⟩ := ih (by omega)
    rw [if_pos (by omega)] at hrow
    rw [List.range_succ, List.flatMap_append, run_append, hrun, List.flatMap_singleton]
    refine ⟨_, rfl, ?_⟩
    have hupdate : ∀ r, t.row ≤ r → r < t.row + (k + 1) →
        Function.update t'.page t'.row (fun _ => none) r = fun _ => none := by
      intro r hlow hhigh
      by_cases hr : r = t'.row
      · rw [hr, Function.update_self]
      · rw [Function.update_of_ne hr]
        exact hblank r hlow (by omega)
    have hother : ∀ r, r < t.row ∨ t.row + (k + 1) ≤ r → Function.update t'.page t'.row (fun _ => none) r = t.page r := by
      intro r hr
      rw [Function.update_of_ne (by omega)]
      exact hpage r (by omega)
    by_cases hlast : k + 1 < n
    · rw [if_pos hlast, if_pos hlast]
      refine ⟨hwidth, hheight, htop, ?_, hupdate, hother⟩
      have hdown : min (t'.top + t'.height - 1) (t'.row + 1) = t.row + (k + 1) := by omega
      exact hdown
    · rw [if_neg hlast, if_neg hlast]
      refine ⟨hwidth, hheight, htop, ?_, hupdate, hother⟩
      have hstay : t'.row = t.row + (n - 1) := by omega
      exact hstay

theorem erase_block {n : Nat} {t : Terminal} (hrows : t.top + n ≤ t.row) (hhigh : t.row ≤ t.top + t.height) :
    Erased t (t.row - n) n (t.run (eraseTerminalBlock n)) := by
  unfold eraseTerminalBlock
  split
  · rename_i hnone
    subst hnone
    exact ⟨rfl, rfl, rfl, rfl, fun r hlow hhigh => by omega, fun _ _ => rfl⟩
  rename_i hsome
  rw [run_append, run_append]
  have hup : max t.top (t.row - n) = t.row - n := by omega
  obtain ⟨t', hrun, hwidth, hheight, htop, hrow, hblank, hpage⟩ :=
    erase_rounds (n := n) (t.run [.carriageReturn, .cursorUp n])
      (by change max t.top (t.row - n) + n ≤ t.top + t.height; omega) (k := n) le_rfl
  have hstart : (t.run [.carriageReturn, .cursorUp n]).row = t.row - n := hup
  rw [hstart] at hrow hblank hpage
  rw [if_neg (Nat.lt_irrefl n)] at hrow
  rw [hrun]
  split
  · refine ⟨hwidth, hheight, htop, ?_, hblank, hpage⟩
    have hback : max t'.top (t'.row - (n - 1)) = t.row - n := by
      have hsameTop : t'.top = t.top := htop
      omega
    exact hback
  · exact ⟨hwidth, hheight, htop, by change t'.row = _; omega, hblank, hpage⟩

end Terminal

-- ---------------------------------------------------------------------------
-- The block fits
-- ---------------------------------------------------------------------------

/-- The lines are plain, fit, stay on their rows and show the last active rows. -/
structure StatusBlock (r : AsyncStatusRenderer) (rows : List AsyncLiveRowSnapshot) (hyperlinkLocations : Bool) : Prop where
  columns : ∀ line ∈ r.activeLinesForRender rows hyperlinkLocations, displayWidth (stripEscapes line) ≤ r.outputWidth - 1
  plain : ∀ line ∈ r.activeLinesForRender rows hyperlinkLocations, PlainText (stripEscapes line)
  count : (r.activeLinesForRender rows hyperlinkLocations).length ≤ max r.terminalRows 2 - 1
  last : ∃ front back parts, orderedRows rows = front ++ back ∧ List.Forall₂ (ShowsRow r hyperlinkLocations) back parts ∧
    r.activeLinesForRender rows hyperlinkLocations = parts.flatten ∧
      (front ≠ [] → parts.flatten.length = max r.terminalRows 2 - 1)
  unwrapped : ∀ line ∈ r.activeLinesForRender rows hyperlinkLocations, ∀ t : Terminal, t.width = r.outputWidth →
    ((t.apply .carriageReturn).apply (.text line)).row = t.row

/-- Erasing blanks the rows that were drawn and no others, wherever the block starts. -/
def ErasesDrawn (r : AsyncStatusRenderer) (rows : List AsyncLiveRowSnapshot) (hyperlinkLocations : Bool) : Prop :=
  let lines := r.activeLinesForRender rows hyperlinkLocations
  ∀ t : Terminal, t.width = r.outputWidth → t.height = r.terminalRows → t.Shown →
    Terminal.Erased (t.run (drawTerminalBlock lines)) t.row lines.length
      ((t.run (drawTerminalBlock lines)).run (eraseTerminalBlock lines.length))

variable {r : AsyncStatusRenderer}

theorem activeLines_columns (hmode : r.mode = .terminal) (hwidth : 2 ≤ r.outputWidth) (rows : List AsyncLiveRowSnapshot)
    (hyperlinkLocations : Bool) : ∀ line ∈ r.activeLinesForRender rows hyperlinkLocations,
      PlainText (stripEscapes line) ∧ displayWidth (stripEscapes line) ≤ r.outputWidth - 1 := by
  intro line hline
  obtain ⟨visible, hvisible, hplain, hcolumns⟩ := activeLines_fit hmode hwidth rows hyperlinkLocations line hline
  rw [hvisible.strip]
  exact ⟨hplain, hcolumns⟩

theorem activeLines_length (hmode : r.mode = .terminal) (rows : List AsyncLiveRowSnapshot) (hyperlinkLocations : Bool) :
    (r.activeLinesForRender rows hyperlinkLocations).length ≤ max r.terminalRows 2 - 1 := by
  obtain ⟨_, _, _, -, -, hlines, hlength, -⟩ := activeLines_last hmode rows hyperlinkLocations
  have hrows : r.maxRows = max r.terminalRows 2 - 1 := if_pos hmode
  rw [hlines, ← hrows]
  exact hlength

theorem erase_drawn {lines : List (List UInt8)} {t t' : Terminal} (hshown : t.Shown) (hroom : lines.length < t.height)
    (hdrawn : Terminal.Drawn t lines.length t') :
    Terminal.Erased t' t.row lines.length (t'.run (eraseTerminalBlock lines.length)) := by
  obtain ⟨hwidth, hheight, hrow, htop, hpage⟩ := hdrawn
  obtain ⟨hlow, hhigh⟩ := hshown
  have herase := Terminal.erase_block (n := lines.length) (t := t') (by omega) (by omega)
  rwa [show t'.row - lines.length = t.row by omega] at herase

theorem status_block_fits (hmode : r.mode = .terminal) (hwidth : 2 ≤ r.outputWidth) (rows : List AsyncLiveRowSnapshot)
    (hyperlinkLocations : Bool) :
    StatusBlock r rows hyperlinkLocations ∧ (2 ≤ r.terminalRows → ErasesDrawn r rows hyperlinkLocations) := by
  have hcolumns := activeLines_columns hmode hwidth rows hyperlinkLocations
  have hlength := activeLines_length hmode rows hyperlinkLocations
  constructor
  · refine ⟨fun line hline => (hcolumns line hline).2, fun line hline => (hcolumns line hline).1, hlength, ?_, ?_⟩
    · obtain ⟨front, back, parts, hrows, hparts, hlines, -, hfull⟩ := activeLines_last hmode rows hyperlinkLocations
      have hmaxRows : r.maxRows = max r.terminalRows 2 - 1 := if_pos hmode
      exact ⟨front, back, parts, hrows, hparts, hlines, hmaxRows ▸ hfull⟩
    · intro line hline t ht
      have := (hcolumns line hline).2
      exact (Terminal.text_sameRow (by omega)).row
  · intro hheight t ht hrows hshown
    refine erase_drawn hshown (by omega) (Terminal.draw_block _ hshown fun line hline => ?_)
    have := (hcolumns line hline).2
    omega

def runningRow : AsyncLiveRowSnapshot where
  id := 0
  name := ascii "a"
  status := .running
  detail := []
  suspendFile := []
  suspendLabel := []
  suspendUri := []
  recentLogs := []
  logCount := 0
  suspendLine := 0
  durationMs := 0
  final := false
  uri_location := ⟨[], 0, by decide⟩

def smallRenderer (terminalRows : Nat) : AsyncStatusRenderer where
  mode := .terminal
  colorOutput := false
  outputWidth := 20
  terminalRows := terminalRows
  logTailLimit := 5
  normalize := id

theorem two_rows_status_block :
    StatusBlock (smallRenderer 2) [runningRow] true ∧ (2 ≤ 2 → ErasesDrawn (smallRenderer 2) [runningRow] true) :=
  status_block_fits rfl (by decide) [runningRow] true

/-- On a terminal with one row the line that was drawn has scrolled away. -/
theorem one_row_not_erased : ¬ErasesDrawn (smallRenderer 1) [runningRow] true := by
  intro herases
  have herased := herases ⟨20, 1, fun _ _ => none, 0, 0, 0⟩ rfl rfl ⟨le_rfl, by decide⟩
  have hblank := congrFun (herased.blank 0 (by decide) (by decide +kernel)) 0
  revert hblank
  decide +kernel

-- ---------------------------------------------------------------------------
-- Runs
-- ---------------------------------------------------------------------------

/-- The block is the rows from `base` to the cursor, and nothing else changed. -/
structure BlockAt (start : Terminal) (s : Screen) : Prop where
  width : s.terminal.width = start.width
  height : s.terminal.height = start.height
  row : s.terminal.row = start.row + s.visibleLines
  shown : s.terminal.Shown
  within : s.terminal.top ≤ start.row
  page : ∀ q, q < start.row ∨ start.row + s.visibleLines ≤ q → s.terminal.page q = start.page q

theorem redraw_blockAt {start : Terminal} {s : Screen} {lines : List (List UInt8)} (h : BlockAt start s)
    (hblank : ∀ q, start.row ≤ q → start.page q = fun _ => none) (hroom : lines.length < start.height)
    (hlines : ∀ line ∈ lines, displayWidth (stripEscapes line) ≤ start.width) :
    BlockAt start (redrawTerminal s lines) := by
  obtain ⟨hwidth, hheight, hrow, ⟨hlow, hhigh⟩, hwithin, hpage⟩ := h
  have herased := Terminal.erase_block (n := s.visibleLines) (t := s.terminal) (by omega) (by omega)
  have hfirst : s.terminal.row - s.visibleLines = start.row := by omega
  rw [hfirst] at herased
  have hclean : ∀ q, (s.terminal.run (eraseTerminalBlock s.visibleLines)).page q = start.page q := by
    intro q
    by_cases hq : start.row ≤ q ∧ q < start.row + s.visibleLines
    · rw [herased.blank q hq.1 hq.2, hblank q hq.1]
    · rw [herased.page q (by omega), hpage q (by omega)]
  obtain ⟨hwidth', hheight', htop', hrow', -, -⟩ := herased
  have hdrawn := Terminal.draw_block lines (t := s.terminal.run (eraseTerminalBlock s.visibleLines))
    ⟨by omega, by omega⟩ (by rw [hwidth', hwidth]; exact hlines)
  obtain ⟨hdwidth, hdheight, hdrow, hdtop, hdpage⟩ := hdrawn
  refine ⟨hdwidth.trans (hwidth'.trans hwidth), hdheight.trans (hheight'.trans hheight), ?_, ⟨?_, ?_⟩, ?_, fun q hq => ?_⟩
  · exact hdrow.trans (by rw [hrow']; rfl)
  · rw [redrawTerminal, hdrow, hdtop]
    omega
  · rw [redrawTerminal, hdrow, hdtop, hdheight]
    omega
  · rw [redrawTerminal, hdtop]
    omega
  · rw [redrawTerminal, hdpage q (by rw [hrow']; exact hq), hclean]

theorem refreshes_leave_page (hmode : r.mode = .terminal) (hwidth : 2 ≤ r.outputWidth) (hheight : 2 ≤ r.terminalRows)
    (history : List (List AsyncLiveRowSnapshot)) {start : Terminal} (hstart : start.Shown)
    (hsize : start.width = r.outputWidth ∧ start.height = r.terminalRows)
    (hblank : ∀ q, start.row ≤ q → start.page q = fun _ => none) :
    let s := history.foldl (fun s rows => redrawTerminal s (r.activeLinesForRender rows true)) ⟨0, start⟩
    (s.terminal.run (eraseTerminalBlock s.visibleLines)).page = start.page ∧
      (s.terminal.run (eraseTerminalBlock s.visibleLines)).row = start.row := by
  intro s
  have hblock : BlockAt start s := by
    have hgeneral : ∀ (history : List (List AsyncLiveRowSnapshot)) (s : Screen), BlockAt start s →
        BlockAt start (history.foldl (fun s rows => redrawTerminal s (r.activeLinesForRender rows true)) s) := by
      intro history
      induction history with
      | nil => exact fun _ h => h
      | cons rows history ih =>
        intro s h
        have hlength := activeLines_length hmode rows true
        refine ih _ (redraw_blockAt h hblank (by omega) fun line hline => ?_)
        have := (activeLines_columns hmode hwidth rows true line hline).2
        omega
    exact hgeneral history _ ⟨rfl, rfl, rfl, hstart, hstart.low, fun _ _ => rfl⟩
  obtain ⟨-, -, hrow, ⟨hlow, hhigh⟩, hwithin, hpage⟩ := hblock
  have herased := Terminal.erase_block (n := s.visibleLines) (t := s.terminal) (by omega) (by omega)
  have hfirst : s.terminal.row - s.visibleLines = start.row := by omega
  rw [hfirst] at herased
  refine ⟨funext fun q => ?_, herased.row⟩
  by_cases hq : start.row ≤ q ∧ q < start.row + s.visibleLines
  · rw [herased.blank q hq.1 hq.2, hblank q hq.1]
  · rw [herased.page q (by omega), hpage q (by omega)]

end Gentest.Runner
