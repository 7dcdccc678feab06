import Gentest.Scan.MacroTable

/-!
# Physical lines

`process_scan_physical_line`: comments are stripped from a line, the lines of a directive
are joined, and a complete directive is handled. `evaluate` is the evaluator of
conditions, which is `none` where it does not return.
-/

namespace Gentest.Scan

open Gentest.Codegen (isSpace)

-- ---------------------------------------------------------------------------
-- Comments and continuations
-- ---------------------------------------------------------------------------

def appendGap (out : List Char) : List Char :=
  if out.getLast?.any fun ch => !isSpace ch then out ++ [' '] else out

def stripCommentsFrom : Bool → List Char → List Char → List Char × Bool
  | inBlockComment, out, [] => (out, inBlockComment)
  | true, out, '*' :: '/' :: line => stripCommentsFrom false (appendGap out) line
  | true, out, _ :: line => stripCommentsFrom true out line
  | false, out, '/' :: '*' :: line => stripCommentsFrom true (appendGap out) line
  | false, out, '/' :: '/' :: _ => (out, false)
  | false, out, ch :: line => stripCommentsFrom false (out ++ [ch]) line

def stripCommentsForLineScan (line : List Char) (inBlockComment : Bool) : List Char × Bool :=
  stripCommentsFrom inBlockComment [] line

def hasTrailingLineContinuation (line : List Char) : Bool := (rtrimAsciiView line).getLast? == some '\\'

def stripTrailingLineContinuation (line : List Char) : List Char :=
  let line := rtrimAsciiView line
  rtrimAsciiView (if line.getLast? = some '\\' then line.dropLast else line)

-- ---------------------------------------------------------------------------
-- Directives
-- ---------------------------------------------------------------------------

def ScanStreamState.conditionOf (s : ScanStreamState) (rawLine : List Char) : Option (List Char) :=
  match directiveOf rawLine with
  | some (.if_, rest) => some rest
  | some (.elif, rest) => if s.conditionals.isEmpty then none else some rest
  | _ => none

variable (evaluate : MacroTable → List Char → Option (Option Bool))

/-- `handle_preprocessor_logical_line` with the evaluation of the condition. -/
def ScanStreamState.handleLogicalLine (s : ScanStreamState) (rawLine : List Char) (lineNumber : Nat) :
    Option ScanStreamState :=
  match s.conditionOf rawLine with
  | none => some (handlePreprocessorLogicalLine rawLine none lineNumber s)
  | some condition =>
    (evaluate s.objectLikeMacros condition).map fun evaluated =>
      handlePreprocessorLogicalLine rawLine evaluated lineNumber s

-- ---------------------------------------------------------------------------
-- Lines
-- ---------------------------------------------------------------------------

structure ProcessedScanLine where
  stripped : List Char := []
  isActiveCode : Bool := false
  isPreprocessor : Bool := false
  deriving DecidableEq, Repr

def ScanStreamState.readLine (s : ScanStreamState) (rawLine : List Char) : ScanStreamState × List Char :=
  let stripped := stripCommentsForLineScan rawLine s.inBlockComment
  ({ s with currentLine := s.currentLine + 1, inBlockComment := stripped.2 }, trimAsciiView stripped.1)

/-- The state once a line of a directive is put behind the lines before it. -/
def ScanStreamState.appendPending (s : ScanStreamState) (trimmed : List Char) : ScanStreamState :=
  if trimmed.isEmpty then s
  else
    { s with
      pendingPreprocessorStartLine :=
        if s.pendingPreprocessor.isEmpty then s.currentLine else s.pendingPreprocessorStartLine
      pendingPreprocessor :=
        if s.pendingPreprocessor.isEmpty then trimmed else s.pendingPreprocessor ++ ' ' :: trimmed }

def ScanStreamState.processDirective (s : ScanStreamState) (trimmed : List Char) : Option ScanStreamState :=
  let s := s.appendPending trimmed
  if hasTrailingLineContinuation trimmed then
    some
      { s with
        inPreprocessorContinuation := true
        pendingPreprocessor := stripTrailingLineContinuation s.pendingPreprocessor }
  else
    let s := { s with inPreprocessorContinuation := false }
    if s.pendingPreprocessor.isEmpty then some s
    else
      (s.handleLogicalLine evaluate s.pendingPreprocessor s.pendingPreprocessorStartLine).map fun s =>
        { s with pendingPreprocessor := [], pendingPreprocessorStartLine := 0 }

def processScanPhysicalLine (rawLine : List Char) (s : ScanStreamState) : Option (ProcessedScanLine × ScanStreamState) :=
  let (s, trimmed) := s.readLine rawLine
  if s.inPreprocessorContinuation || trimmed.head? == some '#' then
    (s.processDirective evaluate trimmed).map fun s => ({ isPreprocessor := true }, s)
  else if !s.currentBranchActive then some ({}, s)
  else some ({ stripped := trimmed, isActiveCode := !trimmed.isEmpty }, s)

/-- The logical line that a physical line completes, in the state in which it is handled. -/
def ScanStreamState.completed (s : ScanStreamState) (rawLine : List Char) : Option (List Char × ScanStreamState) :=
  let (s, trimmed) := s.readLine rawLine
  if s.inPreprocessorContinuation || trimmed.head? == some '#' then
    let s := s.appendPending trimmed
    if hasTrailingLineContinuation trimmed || s.pendingPreprocessor.isEmpty then none
    else some (s.pendingPreprocessor, { s with inPreprocessorContinuation := false })
  else none

def processLines : List (List Char) → ScanStreamState → Option (List ProcessedScanLine × ScanStreamState)
  | [], s => some ([], s)
  | line :: lines, s =>
    (processScanPhysicalLine evaluate line s).bind fun (processed, s) =>
      (processLines lines s).map fun (others, s) => (processed :: others, s)

end Gentest.Scan
