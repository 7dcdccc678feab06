import Gentest.Runner.TerminalText
import Gentest.Lib.Trimming
import Mathlib.Data.List.Forall2

/-!
# Lines of the live status block

A row of the block shows a case with its status, where it waits and its last log
messages. `format_row` fits all of it into the columns there are, and
`active_lines_for_render` keeps the last rows that the terminal has room for. What is
seen of a line is what is left without the colours and links that the renderer adds.
-/

namespace Gentest.Runner

open Utf8 Trimming

-- ---------------------------------------------------------------------------
-- Status
-- ---------------------------------------------------------------------------

inductive AsyncLiveStatus where
  | suspended
  | yielded
  | running
  | pass
  | fail
  | blocked
  | skip
  | xfail
  | xpass
  deriving DecidableEq, Repr

inductive Color where
  | grey
  | red
  | green
  | yellow
  | blue
  | magenta
  | cyan
  | white
  | unspecified
  deriving DecidableEq, Repr

def asyncLiveStatusText : AsyncLiveStatus → String
  | .suspended => "SUSPENDED"
  | .yielded => "YIELDED"
  | .running => "RUNNING"
  | .pass => "PASS"
  | .fail => "FAIL"
  | .blocked => "BLOCKED"
  | .skip => "SKIP"
  | .xfail => "XFAIL"
  | .xpass => "XPASS"

def statusColor : AsyncLiveStatus → Color
  | .yielded | .running | .pass => .green
  | .suspended | .blocked | .skip => .yellow
  | .fail | .xpass => .red
  | .xfail => .cyan

/-- `{:^9}`. -/
def centered (text : String) : String :=
  let padding := 9 - text.length
  "".pushn ' ' (padding / 2) ++ text ++ "".pushn ' ' (padding - padding / 2)

def plainStatus (status : AsyncLiveStatus) : List UInt8 := ascii ("[ " ++ centered (asyncLiveStatusText status) ++ " ]")

def ansiStatusColorCode (status : AsyncLiveStatus) : String :=
  match statusColor status with
  | .green => "32"
  | .yellow => "33"
  | .red => "31"
  | .cyan => "36"
  | .grey => "90"
  | .blue => "34"
  | .magenta => "35"
  | .white | .unspecified => "37"

def escape : UInt8 := 0x1B

def coloredStatus (status : AsyncLiveStatus) (colorOutput : Bool) : List UInt8 :=
  if colorOutput then
    (escape :: ascii ("[" ++ ansiStatusColorCode status ++ "m")) ++ plainStatus status ++ escape :: ascii "[0m"
  else plainStatus status

-- ---------------------------------------------------------------------------
-- Locations
-- ---------------------------------------------------------------------------

def isUnreserved (ch : UInt8) : Bool :=
  let ch := ch.toNat
  (0x41 ≤ ch && ch ≤ 0x5A) || (0x61 ≤ ch && ch ≤ 0x7A) || (0x30 ≤ ch && ch ≤ 0x39) || ch == 0x2F || ch == 0x2D ||
    ch == 0x5F || ch == 0x2E || ch == 0x7E || ch == 0x3A

def hexByte (nibble : Nat) : UInt8 := if nibble < 10 then UInt8.ofNat (0x30 + nibble) else UInt8.ofNat (0x37 + nibble)

def percentEncodeUriPath (path : List UInt8) : List UInt8 :=
  path.flatMap fun ch => if isUnreserved ch then [ch] else [0x25, hexByte (ch.toNat / 16), hexByte (ch.toNat % 16)]

def terminalLocationUri (file : List UInt8) (line : Nat) : List UInt8 :=
  if file = [] ∨ line = 0 then []
  else
    let uriPath := percentEncodeUriPath (file.map fun ch => if ch = 0x5C then 0x2F else ch)
    ascii (if uriPath.head? = some 0x2F then "file://" else "file:///") ++ uriPath ++ ascii ("#L" ++ toString line)

def linkLocation (label uri : List UInt8) (hyperlink : Bool) : List UInt8 :=
  if hyperlink = false ∨ label = [] then label
  else if uri = [] then label
  else (escape :: ascii "]8;;") ++ uri ++ (escape :: ascii "\\") ++ label ++ (escape :: ascii "]8;;") ++ escape :: ascii "\\"

-- ---------------------------------------------------------------------------
-- Rows
-- ---------------------------------------------------------------------------

/-- A row; its link is one that `location_parts` made, or none. -/
structure AsyncLiveRowSnapshot where
  id : Nat
  name : List UInt8
  status : AsyncLiveStatus
  detail : List UInt8
  suspendFile : List UInt8
  suspendLabel : List UInt8
  suspendUri : List UInt8
  recentLogs : List (List UInt8)
  logCount : Nat
  suspendLine : Nat
  durationMs : Int
  final : Bool
  uri_location : ∃ file line, suspendUri = terminalLocationUri file line

def primaryText (row : AsyncLiveRowSnapshot) : List UInt8 :=
  ascii " " ++ sanitizedTerminalField row.name ++
    (if row.detail = [] then [] else ascii " :: " ++ sanitizedTerminalField row.detail) ++
    (if row.logCount = 0 then []
      else ascii ((if row.detail = [] then " :: " else "; ") ++ toString row.logCount ++ " log(s)"))

/-- The label of the location and its link; `normalize` is `normalize_source_file`, which
asks the file system. -/
def locationParts (normalize : List UInt8 → List UInt8) (row : AsyncLiveRowSnapshot) : List UInt8 × List UInt8 :=
  let label := sanitizedTerminalField row.suspendLabel
  if label = [] ∧ row.suspendFile ≠ [] ∧ row.suspendLine ≠ 0 then
    let file := normalize row.suspendFile
    (sanitizedTerminalField (file ++ ascii (":" ++ toString row.suspendLine)), terminalLocationUri file row.suspendLine)
  else (label, row.suspendUri)

def formatRow (normalize : List UInt8 → List UInt8) (row : AsyncLiveRowSnapshot) (colorOutput hyperlinkLocations : Bool)
    (maxWidth : Nat) : List UInt8 :=
  let statusPlain := plainStatus row.status
  let status := coloredStatus row.status colorOutput
  let primary := primaryText row
  let location := locationParts normalize row
  let label := location.1
  let link := fun label => linkLocation label location.2 hyperlinkLocations
  let lead := if label = [] then [] else if row.detail = [] then ascii " :: " else ascii " @ "
  let duration := if row.final then ascii (" (" ++ toString row.durationMs ++ " ms)") else []
  if maxWidth = 0 ∨ displayWidth statusPlain + displayWidth primary + displayWidth lead + displayWidth label +
      displayWidth duration ≤ maxWidth then
    status ++ primary ++ lead ++ link label ++ duration
  else
    let statusWidth := displayWidth statusPlain
    if maxWidth ≤ statusWidth then shortenRight statusPlain maxWidth
    else
      let tailWidth := maxWidth - statusWidth
      let fixedWithoutLabel := displayWidth lead + displayWidth duration
      if label ≠ [] ∧ fixedWithoutLabel < tailWidth then
        let labelBudget := tailWidth - fixedWithoutLabel
        let clippedLabel := if labelBudget ≤ displayWidth label then shortenLeft label labelBudget else label
        let clippedPrimary :=
          if labelBudget ≤ displayWidth label then []
          else shortenRight primary (tailWidth - fixedWithoutLabel - displayWidth clippedLabel)
        status ++ clippedPrimary ++ lead ++ link clippedLabel ++ duration
      else status ++ shortenRight (primary ++ lead ++ label ++ duration) tailWidth

def formatLogTailLine (message : List UInt8) (maxWidth : Nat) : List UInt8 :=
  shortenRight (sanitizedTerminalField message) maxWidth

-- ---------------------------------------------------------------------------
-- The block
-- ---------------------------------------------------------------------------

inductive RenderMode where
  | disabled
  | virtual
  | terminal
  deriving DecidableEq, Repr

/-- What the lines depend on besides the rows. -/
structure AsyncStatusRenderer where
  mode : RenderMode
  colorOutput : Bool
  outputWidth : Nat
  terminalRows : Nat
  logTailLimit : Nat
  normalize : List UInt8 → List UInt8

def orderedRows (rows : List AsyncLiveRowSnapshot) : List AsyncLiveRowSnapshot := rows.filter (!·.final)

def AsyncStatusRenderer.lineWidth (r : AsyncStatusRenderer) : Nat :=
  if r.mode = .terminal ∧ 1 < r.outputWidth then r.outputWidth - 1 else r.outputWidth

def AsyncStatusRenderer.maxRows (r : AsyncStatusRenderer) : Nat :=
  if r.mode = .terminal then max r.terminalRows 2 - 1 else 0

def AsyncStatusRenderer.headerLine (r : AsyncStatusRenderer) (hyperlinkLocations : Bool) (row : AsyncLiveRowSnapshot) :
    List UInt8 :=
  trimTrailingPadding (formatRow r.normalize row r.colorOutput hyperlinkLocations r.lineWidth)

def AsyncStatusRenderer.logLines (r : AsyncStatusRenderer) (row : AsyncLiveRowSnapshot) : List (List UInt8) :=
  if r.logTailLimit ≠ 0 ∧ row.recentLogs ≠ [] then
    let firstLog := if r.logTailLimit < row.recentLogs.length then row.recentLogs.length - r.logTailLimit else 0
    (row.recentLogs.drop firstLog).map fun message => trimTrailingPadding (formatLogTailLine message r.lineWidth)
  else []

/-- The first line and as many of the last ones as there is room for. -/
def clipBlock (room : Nat) (block : List (List UInt8)) : List (List UInt8) :=
  let keepTail := min (room - 1) (block.length - 1)
  block.take 1 ++ block.drop (block.length - keepTail)

def AsyncStatusRenderer.block (r : AsyncStatusRenderer) (hyperlinkLocations : Bool) (row : AsyncLiveRowSnapshot) :
    List (List UInt8) :=
  let block := r.headerLine hyperlinkLocations row :: r.logLines row
  if r.mode = .terminal ∧ r.maxRows < block.length then clipBlock r.maxRows block else block

/-- The loop over the blocks, the last one first. -/
def fillRows : Nat → List (List (List UInt8)) → List (List UInt8) → List (List UInt8)
  | _, [], lines => lines
  | remaining, block :: blocks, lines =>
    if remaining = 0 then lines
    else
      let visibleBlock := if block.length ≤ remaining then block else clipBlock remaining block
      fillRows (remaining - visibleBlock.length) blocks (visibleBlock ++ lines)

def AsyncStatusRenderer.activeLinesForRender (r : AsyncStatusRenderer) (rows : List AsyncLiveRowSnapshot)
    (hyperlinkLocations : Bool) : List (List UInt8) :=
  let blocks := (orderedRows rows).map (r.block hyperlinkLocations)
  if r.mode ≠ .terminal then blocks.flatten else fillRows r.maxRows blocks.reverse []

-- ---------------------------------------------------------------------------
-- What is seen of a line
-- ---------------------------------------------------------------------------

def isDigitByte (b : UInt8) : Bool := 0x30 ≤ b.toNat && b.toNat ≤ 0x39

/-- The length of a colour `ESC [ digits m` or a link `ESC ] 8 ; ; uri ESC \` at the front,
zero if there is none. -/
def escapeLength (line : List UInt8) : Nat :=
  if [escape, 0x5B].isPrefixOf line then
    let code := (line.drop 2).takeWhile isDigitByte
    if [0x6D].isPrefixOf (line.drop (2 + code.length)) then code.length + 3 else 0
  else if [escape, 0x5D, 0x38, 0x3B, 0x3B].isPrefixOf line then
    let uri := (line.drop 5).takeWhile (· ≠ escape)
    if [escape, 0x5C].isPrefixOf (line.drop (5 + uri.length)) then uri.length + 7 else 0
  else 0

/-- The line without its colours and links; so many bytes at its front belong to one. -/
def stripFrom : Nat → List UInt8 → List UInt8
  | _, [] => []
  | skip + 1, _ :: rest => stripFrom skip rest
  | 0, b :: rest =>
    match escapeLength (b :: rest) with
    | 0 => b :: stripFrom 0 rest
    | length + 1 => stripFrom length rest

def stripEscapes (line : List UInt8) : List UInt8 := stripFrom 0 line

/-- What the renderer adds: colours and links. -/
inductive RendererEscape : List UInt8 → Prop
  | colour {code : List UInt8} (h : ∀ b ∈ code, isDigitByte b = true) : RendererEscape ([escape, 0x5B] ++ code ++ [0x6D])
  | link {uri : List UInt8} (h : escape ∉ uri) :
    RendererEscape ([escape, 0x5D, 0x38, 0x3B, 0x3B] ++ uri ++ [escape, 0x5C])

/-- The second text with colours and links added. -/
inductive Decorated : List UInt8 → List UInt8 → Prop
  | nil : Decorated [] []
  | byte {line visible b} (hb : b ≠ escape) (h : Decorated line visible) : Decorated (b :: line) (b :: visible)
  | escape {line visible e} (he : RendererEscape e) (h : Decorated line visible) : Decorated (e ++ line) visible

theorem takeWhile_stop {p : UInt8 → Bool} {front rest : List UInt8} {b : UInt8} (hfront : ∀ a ∈ front, p a = true)
    (hb : p b = false) : (front ++ b :: rest).takeWhile p = front := by
  rw [List.takeWhile_append_of_pos hfront, List.takeWhile_cons_of_neg (by simp [hb]), List.append_nil]

theorem escapeLength_escape {e : List UInt8} (h : RendererEscape e) (line : List UInt8) :
    escapeLength (e ++ line) = e.length := by
  cases h with
  | @colour code h =>
    have hcode : (code ++ 0x6D :: line).takeWhile isDigitByte = code := takeWhile_stop h (by decide)
    have hline : [escape, 0x5B] ++ code ++ [0x6D] ++ line = escape :: 0x5B :: (code ++ 0x6D :: line) := by simp
    have hbehind : (escape :: 0x5B :: (code ++ 0x6D :: line)).drop 2 = code ++ 0x6D :: line := rfl
    have hdrop : (escape :: 0x5B :: (code ++ 0x6D :: line)).drop (2 + code.length) = 0x6D :: line := by
      rw [← List.drop_drop, hbehind, List.drop_left]
    rw [hline, escapeLength, if_pos (by simp), hbehind, hcode]
    dsimp only
    rw [hdrop, if_pos (by simp)]
    simp
  | @link uri h =>
    have huri : (uri ++ escape :: 0x5C :: line).takeWhile (· ≠ escape) = uri :=
      takeWhile_stop (fun b hb => decide_eq_true fun heq => h (heq ▸ hb)) (by decide)
    have hline : [escape, 0x5D, 0x38, 0x3B, 0x3B] ++ uri ++ [escape, 0x5C] ++ line =
        escape :: 0x5D :: 0x38 :: 0x3B :: 0x3B :: (uri ++ escape :: 0x5C :: line) := by simp
    have hbehind : (escape :: 0x5D :: 0x38 :: 0x3B :: 0x3B :: (uri ++ escape :: 0x5C :: line)).drop 5 =
        uri ++ escape :: 0x5C :: line := rfl
    have hdrop : (escape :: 0x5D :: 0x38 :: 0x3B :: 0x3B :: (uri ++ escape :: 0x5C :: line)).drop (5 + uri.length) =
        escape :: 0x5C :: line := by
      rw [← List.drop_drop, hbehind, List.drop_left]
    rw [hline, escapeLength, if_neg (by simp), if_pos (by simp), hbehind, huri]
    dsimp only
    rw [hdrop, if_pos (by simp)]
    simp

theorem stripFrom_length (front rest : List UInt8) : stripFrom front.length (front ++ rest) = stripFrom 0 rest := by
  induction front with
  | nil => rfl
  | cons b front ih => exact ih

theorem Decorated.strip {line visible : List UInt8} (h : Decorated line visible) : stripEscapes line = visible := by
  induction h with
  | nil => rfl
  | @byte line visible b hb _ ih =>
    have hnone : escapeLength (b :: line) = 0 := by
      unfold escapeLength
      rw [if_neg (by simp [Ne.symm hb]), if_neg (by simp [Ne.symm hb])]
    rw [stripEscapes, stripFrom, hnone]
    exact congrArg _ ih
  | @escape line visible e he _ ih =>
    have hlength := escapeLength_escape he line
    obtain ⟨b, more, rfl⟩ : ∃ b more, e = b :: more := by
      cases he with
      | colour h => exact ⟨_, _, rfl⟩
      | link h => exact ⟨_, _, rfl⟩
    rw [stripEscapes, List.cons_append, stripFrom, ← List.cons_append, hlength]
    exact (stripFrom_length more line).trans ih

theorem Decorated.append {line line' visible visible' : List UInt8} (h : Decorated line visible)
    (h' : Decorated line' visible') : Decorated (line ++ line') (visible ++ visible') := by
  induction h with
  | nil => exact h'
  | byte hb _ ih => exact .byte hb ih
  | @escape line visible e he _ ih =>
    rw [List.append_assoc]
    exact .escape he ih

theorem Decorated.escapes {e : List UInt8} (he : RendererEscape e) : Decorated e [] := by
  have happend := Decorated.escape he .nil
  rwa [List.append_nil] at happend

theorem escape_not_mem {x : List UInt8} (h : PlainText x) : escape ∉ x := by
  obtain ⟨cs, hcs, rfl⟩ := h
  intro hmem
  obtain ⟨c, hc, hb⟩ := List.mem_flatMap.mp hmem
  have hplain := hcs c hc
  rcases encodeChar_bytes c with ⟨hlow, hbytes⟩ | ⟨-, hhigh⟩
  · rw [hbytes, List.mem_singleton] at hb
    have hvalue := congrArg UInt8.toNat hb
    rw [toNat_ofNat_of_lt (by omega), show escape.toNat = 0x1B from rfl] at hvalue
    unfold IsControl at hplain
    omega
  · have hvalue := hhigh escape hb
    rw [show escape.toNat = 0x1B from rfl] at hvalue
    omega

theorem Decorated.plain {x : List UInt8} (h : PlainText x) : Decorated x x := by
  have hmem := escape_not_mem h
  clear h
  induction x with
  | nil => exact .nil
  | cons b x ih =>
    rw [List.mem_cons, not_or] at hmem
    exact .byte (Ne.symm hmem.1) (ih hmem.2)

-- ---------------------------------------------------------------------------
-- Lines that fit
-- ---------------------------------------------------------------------------

/-- What is seen of the line is plain and has at most so many columns. -/
def Fits (columns : Nat) (line : List UInt8) : Prop :=
  ∃ visible, Decorated line visible ∧ PlainText visible ∧ displayWidth visible ≤ columns

theorem Fits.of_plain {x : List UInt8} {columns : Nat} (h : PlainText x) (hwidth : displayWidth x ≤ columns) :
    Fits columns x := ⟨x, .plain h, h, hwidth⟩

theorem Fits.append {x y : List UInt8} {a b : Nat} (hx : Fits a x) (hy : Fits b y) : Fits (a + b) (x ++ y) := by
  obtain ⟨vx, hx, hpx, hwx⟩ := hx
  obtain ⟨vy, hy, hpy, hwy⟩ := hy
  exact ⟨vx ++ vy, hx.append hy, hpx.append hpy, by rw [displayWidth_append hpx]; omega⟩

theorem Fits.mono {x : List UInt8} {a b : Nat} (h : Fits a x) (hle : a ≤ b) : Fits b x := by
  obtain ⟨visible, hvisible, hplain, hwidth⟩ := h
  exact ⟨visible, hvisible, hplain, hwidth.trans hle⟩

theorem rdropWhile_escape {e : List UInt8} (he : RendererEscape e) : e.rdropWhile isPadding = e := by
  cases he with
  | colour h => exact List.rdropWhile_concat_neg _ _ _ (by decide)
  | @link uri h =>
    have hlast : [escape, 0x5D, 0x38, 0x3B, 0x3B] ++ uri ++ [escape, 0x5C] =
        ([escape, 0x5D, 0x38, 0x3B, 0x3B] ++ uri ++ [escape]) ++ [0x5C] := by simp
    rw [hlast]
    exact List.rdropWhile_concat_neg _ _ _ (by decide)

theorem Decorated.trim {line visible : List UInt8} (h : Decorated line visible) :
    ∃ kept padding, visible = kept ++ padding ∧ (∀ b ∈ padding, isPadding b = true) ∧
      Decorated (trimTrailingPadding line) kept := by
  unfold trimTrailingPadding
  induction h with
  | nil => exact ⟨[], [], rfl, fun _ h => (nomatch h), .nil⟩
  | @byte line visible b hb _ ih =>
    obtain ⟨kept, padding, rfl, hpadding, hkept⟩ := ih
    have hcons : (b :: line).rdropWhile isPadding =
        if line.rdropWhile isPadding = [] then [b].rdropWhile isPadding else b :: line.rdropWhile isPadding :=
      rdropWhile_append isPadding [b] line
    rw [hcons]
    split
    · rename_i hnone
      rw [hnone] at hkept
      obtain rfl : kept = [] := by
        have hstrip := hkept.strip
        exact hstrip.symm
      cases hpad : isPadding b with
      | true =>
        refine ⟨[], b :: padding, rfl, List.forall_mem_cons.mpr ⟨hpad, hpadding⟩, ?_⟩
        rw [List.rdropWhile_singleton, if_pos hpad]
        exact .nil
      | false =>
        refine ⟨[b], padding, rfl, hpadding, ?_⟩
        rw [List.rdropWhile_singleton, if_neg (by simp [hpad])]
        exact .byte hb .nil
    · exact ⟨b :: kept, padding, rfl, hpadding, .byte hb hkept⟩
  | @escape line visible e he _ ih =>
    obtain ⟨kept, padding, rfl, hpadding, hkept⟩ := ih
    refine ⟨kept, padding, rfl, hpadding, ?_⟩
    rw [rdropWhile_append, rdropWhile_escape he]
    split
    · rename_i hnone
      rw [hnone] at hkept
      obtain rfl : kept = [] := hkept.strip.symm
      exact .escapes he
    · exact .escape he hkept

theorem plain_of_padding {kept padding : List UInt8} (hplain : PlainText (kept ++ padding))
    (hpadding : ∀ b ∈ padding, isPadding b = true) : PlainText kept := by
  have hascii : ∀ b ∈ padding, b.toNat < 0x80 := by
    intro b hb
    have hpad := hpadding b hb
    simp only [isPadding, Bool.or_eq_true, decide_eq_true_eq] at hpad
    rcases hpad with ((rfl | rfl) | rfl) | rfl <;> decide
  obtain ⟨cs, hcs, hencode⟩ := hplain
  obtain ⟨ds, rfl⟩ := (valid_append_ascii hascii).mp ⟨cs, hencode⟩
  obtain ⟨ps, rfl⟩ : Valid padding := by
    have hvalid : Valid (padding ++ []) := (valid_ascii_append hascii).mpr valid_nil
    rwa [List.append_nil] at hvalid
  rw [← encode_append] at hencode
  obtain rfl := encode_injective hencode
  exact ⟨ds, fun c hc => hcs c (List.mem_append_left ps hc), rfl⟩

theorem Fits.trim {line : List UInt8} {columns : Nat} (h : Fits columns line) :
    Fits columns (trimTrailingPadding line) := by
  obtain ⟨visible, hvisible, hplain, hwidth⟩ := h
  obtain ⟨kept, padding, rfl, hpadding, hkept⟩ := hvisible.trim
  have hplainKept := plain_of_padding hplain hpadding
  rw [displayWidth_append hplainKept] at hwidth
  exact ⟨kept, hkept, hplainKept, by omega⟩

-- ---------------------------------------------------------------------------
-- The parts of a row
-- ---------------------------------------------------------------------------

def Printable (text : String) : Prop := ∀ c ∈ text.toList, 0x20 ≤ c.toNat ∧ c.toNat ≤ 0x7E

instance (text : String) : Decidable (Printable text) := inferInstanceAs (Decidable (∀ c ∈ text.toList, _))

theorem Printable.append {a b : String} (ha : Printable a) (hb : Printable b) : Printable (a ++ b) := by
  rw [Printable, String.toList_append]
  exact List.forall_mem_append.mpr ⟨ha, hb⟩

theorem Printable.plain {text : String} (h : Printable text) : PlainText (ascii text) := by
  refine ⟨text.toList, fun c hc => ?_, rfl⟩
  have hrange := h c hc
  unfold IsControl
  omega

theorem printable_nat (n : Nat) : Printable (toString n) := by
  intro c hc
  have hdigits : (toString n).toList = Nat.toDigits 10 n := Nat.toList_repr
  rw [hdigits] at hc
  have hdigit := Nat.isDigit_of_mem_toDigits (by decide) (by decide) hc
  simp only [Char.isDigit, Bool.and_eq_true, decide_eq_true_eq, UInt32.le_iff_toNat_le] at hdigit
  have hlow : 48 ≤ c.toNat := hdigit.1
  have hhigh : c.toNat ≤ 57 := hdigit.2
  omega

theorem printable_int (n : Int) : Printable (toString n) := by
  rw [Int.toString_eq_repr, Int.repr_eq_if]
  split
  · exact printable_nat _
  · exact .append (by decide) (printable_nat _)

theorem primaryText_plain (row : AsyncLiveRowSnapshot) : PlainText (primaryText row) := by
  have hname := sanitizedTerminalField_plain row.name
  have hdetail := sanitizedTerminalField_plain row.detail
  have hspace : PlainText (ascii " ") := Printable.plain (by decide)
  have hcolons : PlainText (ascii " :: ") := Printable.plain (by decide)
  unfold primaryText
  refine .append (.append (hspace.append hname) ?_) ?_
  · split
    · exact .nil
    · exact hcolons.append hdetail
  · split
    · exact .nil
    · refine (Printable.append (.append ?_ (printable_nat row.logCount)) (by decide)).plain
      split <;> decide

theorem locationParts_plain (normalize : List UInt8 → List UInt8) (row : AsyncLiveRowSnapshot) :
    PlainText (locationParts normalize row).1 := by
  unfold locationParts
  dsimp only
  split
  · exact sanitizedTerminalField_plain _
  · exact sanitizedTerminalField_plain _

theorem duration_plain (row : AsyncLiveRowSnapshot) :
    PlainText (if row.final then ascii (" (" ++ toString row.durationMs ++ " ms)") else []) := by
  split
  · exact (Printable.append (.append (by decide) (printable_int _)) (by decide)).plain
  · exact .nil

theorem lead_plain (label detail : List UInt8) :
    PlainText (if label = [] then [] else if detail = [] then ascii " :: " else ascii " @ ") := by
  split
  · exact .nil
  split
  · exact Printable.plain (by decide)
  · exact Printable.plain (by decide)

theorem plainStatus_plain (status : AsyncLiveStatus) :
    PlainText (plainStatus status) ∧ displayWidth (plainStatus status) = 13 := by
  refine ⟨Printable.plain ?_, ?_⟩
  · cases status <;> decide
  · cases status <;> decide +kernel

theorem coloredStatus_fits (status : AsyncLiveStatus) (colorOutput : Bool) : Fits 13 (coloredStatus status colorOutput) := by
  obtain ⟨hplain, hwidth⟩ := plainStatus_plain status
  unfold coloredStatus
  split
  · refine ⟨[] ++ plainStatus status ++ [], .append (.append ?_ (.plain hplain)) ?_, ?_, ?_⟩
    · refine .escapes ?_
      have hcode : ∀ b ∈ ascii (ansiStatusColorCode status), isDigitByte b = true := by
        cases status <;> decide
      have hbytes : escape :: ascii ("[" ++ ansiStatusColorCode status ++ "m") =
          [escape, 0x5B] ++ ascii (ansiStatusColorCode status) ++ [0x6D] := by
        cases status <;> decide
      rw [hbytes]
      exact .colour hcode
    · exact .escapes (@RendererEscape.colour [0x30] (by decide))
    · simpa using hplain
    · simpa using hwidth.le
  · exact .of_plain hplain hwidth.le

theorem hexByte_ne_escape (n : Nat) (h : n < 16) : hexByte n ≠ escape := by
  have hall : ∀ n : Fin 16, hexByte n.val ≠ escape := by decide
  exact hall ⟨n, h⟩

theorem escape_not_mem_uri (file : List UInt8) (line : Nat) : escape ∉ terminalLocationUri file line := by
  have hencoded : ∀ path : List UInt8, escape ∉ percentEncodeUriPath path := by
    intro path hmem
    obtain ⟨ch, -, hch⟩ := List.mem_flatMap.mp hmem
    split at hch
    · rename_i hunreserved
      rw [List.mem_singleton] at hch
      rw [← hch] at hunreserved
      exact absurd hunreserved (by decide)
    · have hhigh := hexByte_ne_escape (ch.toNat / 16) (by have := ch.toNat_lt; omega)
      have hlow := hexByte_ne_escape (ch.toNat % 16) (by omega)
      simp only [List.mem_cons, List.not_mem_nil, or_false] at hch
      rcases hch with hch | hch | hch
      · exact absurd hch (by decide)
      · exact hhigh hch.symm
      · exact hlow hch.symm
  unfold terminalLocationUri
  split
  · exact List.not_mem_nil
  · dsimp only
    rw [List.mem_append, List.mem_append, not_or, not_or]
    refine ⟨⟨?_, hencoded _⟩, ?_⟩
    · split <;> decide
    · exact escape_not_mem (Printable.append (by decide) (printable_nat line)).plain

theorem linkLocation_fits {label uri : List UInt8} {columns : Nat} (hlabel : PlainText label)
    (hwidth : displayWidth label ≤ columns) (huri : escape ∉ uri) (hyperlink : Bool) :
    Fits columns (linkLocation label uri hyperlink) := by
  unfold linkLocation
  split
  · exact .of_plain hlabel hwidth
  split
  · exact .of_plain hlabel hwidth
  · have hopen : Decorated ((escape :: ascii "]8;;") ++ uri ++ (escape :: ascii "\\")) [] := .escapes (.link huri)
    have hclose : Decorated ((escape :: ascii "]8;;") ++ escape :: ascii "\\") [] :=
      .escapes (@RendererEscape.link [] List.not_mem_nil)
    refine ⟨[] ++ label ++ [], ?_, by simpa using hlabel, by simpa using hwidth⟩
    rw [List.append_assoc (_ ++ _ ++ _ ++ label)]
    exact (hopen.append (.plain hlabel)).append hclose

-- ---------------------------------------------------------------------------
-- Rows fit
-- ---------------------------------------------------------------------------

theorem location_uri_escape (normalize : List UInt8 → List UInt8) (row : AsyncLiveRowSnapshot) :
    escape ∉ (locationParts normalize row).2 := by
  unfold locationParts
  dsimp only
  split
  · exact escape_not_mem_uri _ _
  · obtain ⟨file, line, huri⟩ := row.uri_location
    rw [huri]
    exact escape_not_mem_uri file line

/-- A formatted row has at most the columns that are asked for. -/
theorem formatRow_fits (normalize : List UInt8 → List UInt8) (row : AsyncLiveRowSnapshot)
    (colorOutput hyperlinkLocations : Bool) {maxWidth : Nat} (hpos : maxWidth ≠ 0) :
    Fits maxWidth (formatRow normalize row colorOutput hyperlinkLocations maxWidth) := by
  obtain ⟨hstatus, hstatusWidth⟩ := plainStatus_plain row.status
  have hcolored := coloredStatus_fits row.status colorOutput
  have hprimary := primaryText_plain row
  have hlabel := locationParts_plain normalize row
  have huri := location_uri_escape normalize row
  have hduration := duration_plain row
  unfold formatRow
  dsimp only
  generalize locationParts normalize row = location at hlabel huri ⊢
  obtain ⟨label, uri⟩ := location
  have hlead := lead_plain label row.detail
  dsimp only at hlabel huri ⊢
  generalize (if row.final then ascii (" (" ++ toString row.durationMs ++ " ms)") else []) = duration at hduration ⊢
  generalize (if label = [] then [] else if row.detail = [] then ascii " :: " else ascii " @ ") = lead at hlead ⊢
  generalize primaryText row = primary at hprimary ⊢
  rw [hstatusWidth]
  split
  · rename_i hfits
    have hsum := hfits.resolve_left hpos
    have hlink := linkLocation_fits hlabel le_rfl huri hyperlinkLocations
    exact ((((hcolored.append (.of_plain hprimary le_rfl)).append (.of_plain hlead le_rfl)).append hlink).append
      (.of_plain hduration le_rfl)).mono hsum
  split
  · obtain ⟨hshort, hwidth⟩ := shortenRight_plain hstatus maxWidth
    exact .of_plain hshort hwidth
  rename_i hroom
  split
  · rename_i hbudget
    split
    · -- the label alone fills the room
      obtain ⟨hclipped, hclippedWidth⟩ := shortenLeft_plain hlabel (maxWidth - 13 - (displayWidth lead + displayWidth duration))
      have hlink := linkLocation_fits hclipped hclippedWidth huri hyperlinkLocations
      exact ((((hcolored.append (.of_plain .nil (Nat.zero_le 0))).append (.of_plain hlead le_rfl)).append hlink).append
        (.of_plain hduration le_rfl)).mono (by omega)
    · rename_i hshort
      obtain ⟨hclipped, hclippedWidth⟩ :=
        shortenRight_plain hprimary (maxWidth - 13 - (displayWidth lead + displayWidth duration) - displayWidth label)
      have hlink := linkLocation_fits hlabel le_rfl huri hyperlinkLocations
      exact ((((hcolored.append (.of_plain hclipped hclippedWidth)).append (.of_plain hlead le_rfl)).append hlink).append
        (.of_plain hduration le_rfl)).mono (by omega)
  · have hall := ((hprimary.append hlead).append hlabel).append hduration
    obtain ⟨hclipped, hclippedWidth⟩ := shortenRight_plain hall (maxWidth - 13)
    exact (hcolored.append (.of_plain hclipped hclippedWidth)).mono (by omega)

-- ---------------------------------------------------------------------------
-- The last rows
-- ---------------------------------------------------------------------------

/-- The first line of a block with some of its last ones. -/
def PartOf (block part : List (List UInt8)) : Prop :=
  ∃ header logs tail, block = header :: logs ∧ part = header :: tail ∧ tail <:+ logs

theorem PartOf.whole {block : List (List UInt8)} (h : block ≠ []) : PartOf block block := by
  obtain ⟨header, logs, rfl⟩ := List.exists_cons_of_ne_nil h
  exact ⟨header, logs, logs, rfl, rfl, List.suffix_rfl⟩

theorem PartOf.trans {a b c : List (List UInt8)} (hab : PartOf a b) (hbc : PartOf b c) : PartOf a c := by
  obtain ⟨header, logs, tail, rfl, rfl, htail⟩ := hab
  obtain ⟨header', logs', tail', heq, rfl, htail'⟩ := hbc
  obtain ⟨rfl, rfl⟩ := List.cons.inj heq
  exact ⟨header, logs, tail', rfl, rfl, htail'.trans htail⟩

theorem clipBlock_spec {room : Nat} {block : List (List UInt8)} (hroom : 0 < room) (hlarge : room < block.length) :
    PartOf block (clipBlock room block) ∧ (clipBlock room block).length = room := by
  obtain ⟨header, logs, rfl⟩ := List.exists_cons_of_ne_nil (l := block) (by rintro rfl; simp at hlarge)
  rw [List.length_cons] at hlarge
  have hkeep : min (room - 1) ((header :: logs).length - 1) = room - 1 := by
    rw [List.length_cons]
    omega
  have hdrop : (header :: logs).length - (room - 1) = (logs.length - (room - 1)) + 1 := by
    rw [List.length_cons]
    omega
  rw [clipBlock, hkeep, hdrop, List.drop_succ_cons]
  refine ⟨⟨header, logs, _, rfl, rfl, List.drop_suffix _ _⟩, ?_⟩
  simp only [List.take_succ_cons, List.take_zero, List.length_append, List.length_singleton, List.length_drop]
  omega

theorem block_part (r : AsyncStatusRenderer) (hyperlinkLocations : Bool) (row : AsyncLiveRowSnapshot) :
    PartOf (r.headerLine hyperlinkLocations row :: r.logLines row) (r.block hyperlinkLocations row) := by
  unfold AsyncStatusRenderer.block
  dsimp only
  split
  · rename_i hclip
    have hroom : 0 < r.maxRows := by
      unfold AsyncStatusRenderer.maxRows
      rw [if_pos hclip.1]
      omega
    exact (clipBlock_spec hroom hclip.2).1
  · exact .whole (List.cons_ne_nil _ _)

/-- The loop takes blocks from the front of its list until there is no room left. -/
theorem fillRows_spec (blocks : List (List (List UInt8))) (hblocks : ∀ block ∈ blocks, block ≠ []) (remaining : Nat)
    (lines : List (List UInt8)) :
    ∃ taken skipped parts, blocks = taken ++ skipped ∧ List.Forall₂ PartOf taken parts ∧
      fillRows remaining blocks lines = parts.reverse.flatten ++ lines ∧ parts.flatten.length ≤ remaining ∧
        (skipped ≠ [] → parts.flatten.length = remaining) := by
  induction blocks generalizing remaining lines with
  | nil => exact ⟨[], [], [], rfl, .nil, rfl, Nat.zero_le _, fun h => absurd rfl h⟩
  | cons block blocks ih =>
    obtain ⟨hblock, hmore⟩ := List.forall_mem_cons.mp hblocks
    rw [fillRows]
    split
    · rename_i hnone
      exact ⟨[], block :: blocks, [], rfl, .nil, rfl, Nat.zero_le _, fun _ => hnone.symm⟩
    rename_i hroom
    dsimp only
    have hpart : ∃ part, (if block.length ≤ remaining then block else clipBlock remaining block) = part ∧
        PartOf block part ∧ part.length ≤ remaining := by
      split
      · rename_i hfits
        exact ⟨block, rfl, .whole hblock, hfits⟩
      · rename_i hlarge
        obtain ⟨hpart, hlength⟩ := clipBlock_spec (Nat.pos_of_ne_zero hroom) (Nat.lt_of_not_le hlarge)
        exact ⟨_, rfl, hpart, hlength.le⟩
    obtain ⟨part, hvisible, hpart, hlength⟩ := hpart
    rw [hvisible]
    obtain ⟨taken, skipped, parts, rfl, hparts, hfill, hbound, hfull⟩ :=
      ih hmore (remaining - part.length) (part ++ lines)
    refine ⟨block :: taken, skipped, part :: parts, rfl, .cons hpart hparts, ?_, ?_, ?_⟩
    · rw [hfill]
      simp
    · rw [List.flatten_cons, List.length_append]
      omega
    · intro hskipped
      have := hfull hskipped
      rw [List.flatten_cons, List.length_append]
      omega

/-- A row shown by its header line and some of its last log lines. -/
def ShowsRow (r : AsyncStatusRenderer) (hyperlinkLocations : Bool) (row : AsyncLiveRowSnapshot)
    (part : List (List UInt8)) : Prop :=
  ∃ tail, part = r.headerLine hyperlinkLocations row :: tail ∧ tail <:+ r.logLines row

/-- The lines show the last active rows in order; when rows are left out all room is
used. -/
theorem activeLines_last {r : AsyncStatusRenderer} (hmode : r.mode = .terminal) (rows : List AsyncLiveRowSnapshot)
    (hyperlinkLocations : Bool) :
    ∃ front back parts, orderedRows rows = front ++ back ∧ List.Forall₂ (ShowsRow r hyperlinkLocations) back parts ∧
      r.activeLinesForRender rows hyperlinkLocations = parts.flatten ∧ parts.flatten.length ≤ r.maxRows ∧
        (front ≠ [] → parts.flatten.length = r.maxRows) := by
  have hnonempty : ∀ block ∈ ((orderedRows rows).map (r.block hyperlinkLocations)).reverse, block ≠ [] := by
    intro block hblock
    obtain ⟨row, -, rfl⟩ := List.mem_map.mp (List.mem_reverse.mp hblock)
    obtain ⟨_, _, _, -, hpart, -⟩ := block_part r hyperlinkLocations row
    rw [hpart]
    exact List.cons_ne_nil _ _
  obtain ⟨taken, skipped, parts, hsplit, hparts, hfill, hbound, hfull⟩ := fillRows_spec _ hnonempty r.maxRows []
  rw [← List.map_reverse] at hsplit
  obtain ⟨back, front, hrows, rfl, rfl⟩ := List.map_eq_append_iff.mp hsplit
  have hordered : orderedRows rows = front.reverse ++ back.reverse := by
    rw [← List.reverse_append, ← hrows, List.reverse_reverse]
  have hlength : parts.reverse.flatten.length = parts.flatten.length := by
    simp only [List.length_flatten, List.map_reverse, List.sum_reverse]
  refine ⟨front.reverse, back.reverse, parts.reverse, hordered, ?_, ?_, ?_, ?_⟩
  · refine List.forall₂_reverse_iff.mpr ((List.forall₂_map_left_iff.mp hparts).imp fun row part hpart => ?_)
    obtain ⟨header, logs, tail, heq, rfl, htail⟩ := (block_part r hyperlinkLocations row).trans hpart
    obtain ⟨rfl, rfl⟩ := List.cons.inj heq
    exact ⟨tail, rfl, htail⟩
  · unfold AsyncStatusRenderer.activeLinesForRender
    rw [if_neg (not_not.mpr hmode), hfill, List.append_nil]
  · rw [hlength]
    exact hbound
  · intro hfront
    rw [hlength]
    refine hfull fun hnone => hfront ?_
    rw [List.map_eq_nil_iff] at hnone
    rw [hnone, List.reverse_nil]

theorem exists_mem_of_forall₂ {α β : Type} {R : α → β → Prop} {as : List α} {bs : List β} (h : List.Forall₂ R as bs)
    {b : β} (hb : b ∈ bs) : ∃ a ∈ as, R a b := by
  induction h with
  | nil => cases hb
  | cons hab _ ih =>
    obtain rfl | hb := List.mem_cons.mp hb
    · exact ⟨_, List.mem_cons_self, hab⟩
    · obtain ⟨a, ha, hr⟩ := ih hb
      exact ⟨a, List.mem_cons_of_mem _ ha, hr⟩

theorem logLines_fit (r : AsyncStatusRenderer) (row : AsyncLiveRowSnapshot) :
    ∀ line ∈ r.logLines row, Fits r.lineWidth line := by
  intro line hline
  unfold AsyncStatusRenderer.logLines at hline
  split at hline
  · obtain ⟨message, -, rfl⟩ := List.mem_map.mp hline
    obtain ⟨hplain, hwidth⟩ := shortenRight_plain (sanitizedTerminalField_plain message) r.lineWidth
    exact (Fits.of_plain hplain hwidth).trim
  · cases hline

theorem activeLines_fit {r : AsyncStatusRenderer} (hmode : r.mode = .terminal) (hwidth : 2 ≤ r.outputWidth)
    (rows : List AsyncLiveRowSnapshot) (hyperlinkLocations : Bool) :
    ∀ line ∈ r.activeLinesForRender rows hyperlinkLocations, Fits (r.outputWidth - 1) line := by
  have hlineWidth : r.lineWidth = r.outputWidth - 1 := if_pos ⟨hmode, hwidth⟩
  obtain ⟨front, back, parts, -, hparts, hlines, -, -⟩ := activeLines_last hmode rows hyperlinkLocations
  intro line hline
  rw [hlines] at hline
  obtain ⟨part, hpart, hline⟩ := List.mem_flatten.mp hline
  obtain ⟨row, -, tail, rfl, htail⟩ := exists_mem_of_forall₂ hparts hpart
  rw [← hlineWidth]
  obtain rfl | hline := List.mem_cons.mp hline
  · exact (formatRow_fits _ row _ _ (by omega)).trim
  · exact logLines_fit r row line (htail.subset hline)

end Gentest.Runner
