import Gentest.Lib.Squeezing
import Gentest.Scan.PhysicalLines

/-!
# Translation phases

A source text is a list of elements: white space, the characters of identifiers, numbers
and operators, literals, comments, splices and newlines. Phases 2 and 3 make logical
lines of them. A splice goes, a comment becomes a space, and a newline ends the line.
-/

namespace Gentest.Scan

open Gentest.Codegen (isSpace)

-- ---------------------------------------------------------------------------
-- Elements
-- ---------------------------------------------------------------------------

inductive Element
  /-- White space other than a newline. -/
  | blank (ch : Char)
  /-- A character that is in no literal and no comment. -/
  | code (ch : Char)
  /-- A string, character or raw string literal or a header name, as it is spelled. -/
  | literal (raw : Bool) (text : List Char)
  /-- The token `%:`, another spelling of `#`. -/
  | digraph (text : List Char)
  | lineComment (text : List Char)
  | blockComment (text : List Char)
  /-- A backslash, white space and a newline. -/
  | splice (blanks : List Char)
  | newline
  deriving DecidableEq, Repr

def Element.spelled : Element → List Char
  | .blank ch | .code ch => [ch]
  | .literal _ text | .digraph text | .lineComment text | .blockComment text => text
  | .splice blanks => '\\' :: blanks ++ ['\n']
  | .newline => ['\n']

def spelledText (source : List Element) : List Char := source.flatMap Element.spelled

/-- A text without its splices, and what is behind the white space and the newline in
front of it. -/
def spliceScan : List Char → List Char × Option (List Char)
  | [] => ([], none)
  | ch :: text =>
    let (out, behind) := spliceScan text
    if ch = '\n' then ('\n' :: out, some out)
    else if ch = '\\' then
      match behind with
      | some rest => (rest, none)
      | none => ('\\' :: out, none)
    else (ch :: out, if isSpace ch then behind else none)

def unspliced (text : List Char) : List Char := (spliceScan text).1

-- ---------------------------------------------------------------------------
-- Well-formed sources
-- ---------------------------------------------------------------------------

def isLineComment (text : List Char) : Bool := text.take 2 == ['/', '/'] && !text.contains '\n'

def closesAtEnd : List Char → Bool
  | [] => false
  | '*' :: '/' :: rest => rest.isEmpty
  | _ :: rest => closesAtEnd rest

def isBlockComment (text : List Char) : Bool := text.take 2 == ['/', '*'] && closesAtEnd (text.drop 2)

def Element.wellFormed : Element → Bool
  | .blank ch => isSpace ch && ch != '\n'
  | .code ch => !isSpace ch && ch != '\\'
  | .literal _ text =>
    text.head?.any (fun ch => !isSpace ch && !(['#', '/', '*'].contains ch)) &&
      text.getLast?.any fun ch => !isSpace ch && !(['\\', '/'].contains ch)
  | .digraph text => unspliced text == ['%', ':']
  | .lineComment text => isLineComment (unspliced text)
  | .blockComment text => isBlockComment (unspliced text)
  | .splice blanks => blanks.all fun ch => isSpace ch && ch != '\n'
  | .newline => true

def nextChar : List Element → Option Char
  | [] => none
  | .splice _ :: source => nextChar source
  | e :: _ => e.spelled.head?

/-- What may stand behind an element: a slash begins no comment, a percent sign no
digraph, and a comment to the end of the line ends with the line. -/
def Element.meets : Element → List Element → Bool
  | .code ch, source =>
    (ch != '/' || !(nextChar source).any ['/', '*'].contains) && (ch != '%' || nextChar source != some ':')
  | .lineComment _, source => source.head?.all (· == .newline)
  | _, _ => true

def wellLexed : List Element → Bool
  | [] => true
  | e :: source => e.wellFormed && e.meets source && wellLexed source

def terminated (source : List Element) : List Element :=
  if source.getLast?.all (· == .newline) then source else source ++ [.newline]

-- ---------------------------------------------------------------------------
-- Logical lines
-- ---------------------------------------------------------------------------

inductive Delivered
  | code (line : List Char)
  | directive (line : List Char)
  deriving DecidableEq, Repr

def Delivered.isDirective : Delivered → Bool
  | .code _ => false
  | .directive _ => true

def handled (delivered : List Delivered) : Nat := delivered.countP Delivered.isDirective

/-- Where phases 2 and 3 are: the logical line so far, the conditionals that are open and
the macros, and what is delivered. -/
structure PhaseState where
  line : List Char := []
  scan : ScanStreamState := {}
  delivered : List Delivered := []

/-- What the condition of each directive comes to, by its place among the directives. -/
abbrev Answers := Nat → Option Bool

variable (answers : Answers)

def PhaseState.endLine (t : PhaseState) : PhaseState :=
  let line := trimAsciiView t.line
  if line.head? = some '#' then
    { line := []
      scan := handlePreprocessorLogicalLine line (answers (handled t.delivered)) 0 t.scan
      delivered := t.delivered ++ [.directive line] }
  else if t.scan.currentBranchActive && !line.isEmpty then
    { t with line := [], delivered := t.delivered ++ [.code line] }
  else { t with line := [] }

/-- The digraph is put down as `#` where it makes the line a directive. -/
def PhaseState.step (t : PhaseState) : Element → PhaseState
  | .blank ch | .code ch => { t with line := t.line ++ [ch] }
  | .literal raw text => { t with line := t.line ++ if raw then text else unspliced text }
  | .digraph _ => { t with line := t.line ++ if (trimAsciiView t.line).isEmpty then ['#'] else ['%', ':'] }
  | .lineComment _ | .blockComment _ => { t with line := t.line ++ [' '] }
  | .splice _ => t
  | .newline => t.endLine answers

def phaseLines (macros : MacroTable) (source : List Element) : List Delivered :=
  ((terminated source).foldl (PhaseState.step answers) { scan := { objectLikeMacros := macros } }).delivered

-- ---------------------------------------------------------------------------
-- The lines of a scan
-- ---------------------------------------------------------------------------

/-- The lines that `std::getline` reads. -/
def getlines : List Char → List (List Char)
  | [] => []
  | ch :: text =>
    if ch = '\n' then [] :: getlines text
    else
      match getlines text with
      | [] => [[ch]]
      | line :: lines => (ch :: line) :: lines

/-- What a physical line delivers: the directive it completes, or active code. -/
def ScanStreamState.delivers (s : ScanStreamState) (rawLine : List Char) (processed : ProcessedScanLine) :
    List Delivered :=
  match s.completed rawLine with
  | some (logicalLine, _) => [.directive logicalLine]
  | none => if processed.isActiveCode then [.code processed.stripped] else []

structure ScanRun where
  state : ScanStreamState := {}
  delivered : List Delivered := []

def ScanRun.readLine (r : ScanRun) (rawLine : List Char) : Option ScanRun :=
  (processScanPhysicalLine (fun _ _ => some (answers (handled r.delivered))) rawLine r.state).map
    fun (processed, s) => ⟨s, r.delivered ++ r.state.delivers rawLine processed⟩

def scannedLines (macros : MacroTable) (text : List Char) : Option (List Delivered) :=
  ((getlines text).foldlM (ScanRun.readLine answers) { state := { objectLikeMacros := macros } }).map (·.delivered)

-- ---------------------------------------------------------------------------
-- White space
-- ---------------------------------------------------------------------------

def normalizeScanDirectiveLine (line : List Char) : List Char := Squeezing.squeeze isSpace ' ' line

def Delivered.normalized : Delivered → Delivered
  | .code line => .code (normalizeScanDirectiveLine line)
  | .directive line => .directive (normalizeScanDirectiveLine line)

end Gentest.Scan
