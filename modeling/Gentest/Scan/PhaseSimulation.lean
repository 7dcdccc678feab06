import Gentest.Scan.DirectiveSpace
import Gentest.Scan.SourceReading

/-!
# The scan and the translation phases

Both take the elements of a source one at a time. `Mode` is where in a logical line they
are, and says which elements the scan may meet there. Along a source that meets this the
scan and the phases stay `Related`, and at its end they have delivered the same.
-/

namespace Gentest.Scan

open Gentest.Codegen (isSpace)

-- ---------------------------------------------------------------------------
-- Modes
-- ---------------------------------------------------------------------------

/-- What the scan and phase 2 have behind the last token. -/
inductive Gap
  | tight
  /-- Both have white space. -/
  | spaced
  /-- Only one of them has, behind a splice or a comment to the end of the line. -/
  | owed
  deriving DecidableEq, Repr

inductive Mode
  /-- Only white space and comments so far. -/
  | start
  | line (directive : Bool) (gap : Gap)
  /-- A comment has taken the scan to a line of its own, where no token may stand. -/
  | ended
  deriving DecidableEq, Repr

def Mode.behindSpace : Mode → Mode
  | .line directive _ => .line directive .spaced
  | mode => mode

def Mode.behindToken (hash : Bool) : Mode → Option Mode
  | .start => some (.line hash .tight)
  | .line directive .tight | .line directive .spaced => some (.line directive .tight)
  | .line _ .owed | .ended => none

/-- In front of a line the digraph makes a directive that the scan does not see. -/
def Mode.behindDigraph : Mode → Option Mode
  | .start => none
  | mode => mode.behindToken false

def Mode.behindLineComment : Mode → Mode
  | .line directive _ => .line directive .owed
  | mode => mode

def Mode.behindLines : Mode → Mode
  | .start => .start
  | _ => .ended

def Mode.behindSplice : Mode → Option Mode
  | .line true .spaced => some (.line true .spaced)
  | .line true _ => some (.line true .owed)
  | _ => none

def Mode.next (mode : Mode) : Element → Option Mode
  | .blank _ => some mode.behindSpace
  | .code ch => mode.behindToken (ch == '#')
  | .literal _ _ => mode.behindToken false
  | .digraph _ => mode.behindDigraph
  | .lineComment _ => some mode.behindLineComment
  | .blockComment text => some (if text.contains '\n' then mode.behindLines else mode.behindSpace)
  | .splice _ => mode.behindSplice
  | .newline => some .start

/-- Lines that show the scan nothing: none is a directive, none is active code, and no
comment is left open. -/
def silentLines (active : Bool) : Bool → List (List Char) → Bool
  | inBlockComment, [] => !inBlockComment
  | inBlockComment, line :: lines =>
    let stripped := stripCommentsForLineScan line inBlockComment
    let trimmed := trimAsciiView stripped.1
    trimmed.head? != some '#' && !(active && !trimmed.isEmpty) && silentLines active stripped.2 lines

/-- The scan sees what it meets as it is: each element with no splice and no comment
where it would part a logical line, or lines of which neither the scan nor the phases
make anything. -/
inductive PlainFrom (answers : Answers) : Mode → PhaseState → List Element → Prop
  | nil {mode t} : PlainFrom answers mode t []
  | step {mode next t e source} : e.plain = true → mode.next e = some next →
      PlainFrom answers next (t.step answers e) source → PlainFrom answers mode t (e :: source)
  /-- A logical line of a group that is skipped. -/
  | skipped {t : PhaseState} {line source : List Element} : t.scan.currentBranchActive = false → Element.newline ∉ line →
      (trimAsciiView (line.foldl (PhaseState.step answers) t).line).head? ≠ some '#' →
      silentLines false false (getlines (spelledText line ++ ['\n'])) = true →
      PlainFrom answers .start ((line ++ [Element.newline]).foldl (PhaseState.step answers) t) source →
      PlainFrom answers .start t (line ++ .newline :: source)
  /-- A comment that a splice takes to the next line. -/
  | comment {mode t first later source} : isLineComment first = true →
      silentLines (t.step answers (.lineComment (first ++ '\n' :: later)) |>.endLine answers).scan.currentBranchActive
        false (getlines (later ++ ['\n'])) = true →
      PlainFrom answers .start ((t.step answers (.lineComment (first ++ '\n' :: later))).endLine answers) source →
      PlainFrom answers mode t (.lineComment (first ++ '\n' :: later) :: .newline :: source)

/-- The source is plain to its end, and the last line does not go on. -/
structure PlainSource (answers : Answers) (macros : MacroTable) (source : List Element) : Prop where
  plain : PlainFrom answers .start { scan := { objectLikeMacros := macros } } (terminated source)
  ends : ∀ line ∈ (getlines (spelledText source)).getLast?, ∀ inBlockComment,
    hasTrailingLineContinuation (stripCommentsForLineScan line inBlockComment).1 = false

-- ---------------------------------------------------------------------------
-- The relation
-- ---------------------------------------------------------------------------

/-- The text without its white space, and whether white space stands last. -/
def squeezed (text : List Char) : List Char × Bool := Squeezing.run isSpace ' ' ([], false) text

def Gap.Matches : Gap → List Char × Bool → List Char × Bool → Prop
  | .tight, x, y => x = y
  | .spaced, x, y => x = y ∧ y.2 = true
  | .owed, x, y => x.1 = y.1

/-- What the scan has of the logical line it is in. -/
def LineReading.text (c : LineReading) : List Char :=
  if c.run.state.pendingPreprocessor.isEmpty then c.out else c.run.state.pendingPreprocessor ++ ' ' :: c.out

/-- The scan is between two logical lines. -/
structure Settled (c : LineReading) (t : PhaseState) : Prop where
  alike : Alike c.run.state t.scan
  delivered : c.run.delivered.map Delivered.normalized = t.delivered.map Delivered.normalized
  continuation : c.run.state.inPreprocessorContinuation = false
  pending : c.run.state.pendingPreprocessor = []
  blank : ∀ ch ∈ c.out, isSpace ch = true

/-- The scan is in a logical line. -/
structure InLine (directive : Bool) (gap : Gap) (c : LineReading) (t : PhaseState) : Prop where
  alike : Alike c.run.state t.scan
  delivered : c.run.delivered.map Delivered.normalized = t.delivered.map Delivered.normalized
  continuation : c.run.state.inPreprocessorContinuation = !c.run.state.pendingPreprocessor.isEmpty
  pending : directive = false → c.run.state.pendingPreprocessor = []
  front : ∃ ch, (ltrimAsciiView c.text).head? = some ch ∧ (ch == '#') = directive
  text : gap.Matches (squeezed c.text) (squeezed t.line)
  unbroken : hasTrailingLineContinuation c.out = false

variable (answers : Answers)

def Related : Mode → LineReading → PhaseState → Prop
  | .start, c, t => Settled c t ∧ ∀ ch ∈ t.line, isSpace ch = true
  | .line directive gap, c, t => InLine directive gap c t
  | .ended, c, t => Settled c (t.endLine answers)

variable {answers} {c c' : LineReading} {t : PhaseState} {directive : Bool} {space : Gap} {ch : Char} {x y : List Char}

-- ---------------------------------------------------------------------------
-- Text
-- ---------------------------------------------------------------------------

theorem Gap.Matches.fst {x y : List Char × Bool} (h : space.Matches x y) : x.1 = y.1 := by
  cases space with
  | tight => exact congrArg Prod.fst h
  | spaced => exact congrArg Prod.fst h.1
  | owed => exact h

theorem squeezed_append (x y : List Char) : squeezed (x ++ y) = Squeezing.run isSpace ' ' (squeezed x) y :=
  Squeezing.run_append x y

theorem squeezed_blank (hch : isSpace ch = true) (x : List Char) : squeezed (x ++ [ch]) = Squeezing.due (squeezed x) := by
  rw [squeezed_append]
  exact Squeezing.step_blank hch

theorem rtrim_append_letter (hch : isSpace ch = false) (x y : List Char) :
    rtrimAsciiView (x ++ ch :: y) = x ++ ch :: rtrimAsciiView y :=
  Trimming.rdropWhile_append_cons hch x y

theorem rtrim_blanks (hy : ∀ ch ∈ y, isSpace ch = true) (x : List Char) : rtrimAsciiView (x ++ y) = rtrimAsciiView x :=
  Trimming.rdropWhile_all x hy

theorem hasTrailing_letter (hch : isSpace ch = false) (x : List Char) :
    hasTrailingLineContinuation (x ++ [ch]) = (ch == '\\') := by
  unfold hasTrailingLineContinuation
  rw [rtrim_append_letter hch]
  simp [rtrimAsciiView]

theorem hasTrailing_blanks (hy : ∀ ch ∈ y, isSpace ch = true) (x : List Char) :
    hasTrailingLineContinuation (x ++ y) = hasTrailingLineContinuation x := by
  unfold hasTrailingLineContinuation
  rw [rtrim_blanks hy]

theorem hasTrailing_trim (x : List Char) :
    hasTrailingLineContinuation (trimAsciiView x) = hasTrailingLineContinuation x := by
  have hsplit : x.takeWhile isSpace ++ ltrimAsciiView x = x := List.takeWhile_append_dropWhile
  unfold hasTrailingLineContinuation
  have hback : rtrimAsciiView (trimAsciiView x) = rtrimAsciiView (ltrimAsciiView x) := List.rdropWhile_idempotent _ _
  rw [hback]
  conv_rhs => rw [← hsplit]
  cases hx : ltrimAsciiView x with
  | nil =>
    have hblanks : ∀ ch ∈ x.takeWhile isSpace, isSpace ch = true := fun _ => List.mem_takeWhile_imp
    rw [List.append_nil, ← List.nil_append (x.takeWhile isSpace), rtrim_blanks hblanks]
  | cons ch rest =>
    have hch : isSpace ch = false := by
      have hhead := List.head?_dropWhile_not isSpace x
      rw [show x.dropWhile isSpace = ch :: rest from hx] at hhead
      simpa using hhead
    rw [rtrim_append_letter hch, ← List.nil_append (ch :: rest), rtrim_append_letter hch, List.nil_append,
      List.getLast?_append]
    simp

theorem stripTrailing_backslash (x : List Char) :
    stripTrailingLineContinuation (x ++ ['\\']) = rtrimAsciiView x := by
  unfold stripTrailingLineContinuation
  rw [rtrim_append_letter (by decide)]
  simp [rtrimAsciiView]

theorem trim_backslash (hy : ∀ ch ∈ y, isSpace ch = true) (x : List Char) :
    trimAsciiView (x ++ '\\' :: y) = ltrimAsciiView x ++ ['\\'] := by
  unfold trimAsciiView Trimming.trim
  rw [Trimming.dropWhile_append_cons (by decide), Trimming.rdropWhile_append_cons (by decide),
    List.rdropWhile_eq_nil_iff.mpr hy]
  rfl

theorem front_append (h : (ltrimAsciiView x).head? = some ch) (y : List Char) :
    (ltrimAsciiView (x ++ y)).head? = some ch := by
  obtain ⟨rest, hx⟩ := List.head?_eq_some_iff.mp h
  unfold ltrimAsciiView at hx ⊢
  rw [List.dropWhile_append, hx]
  rfl

theorem LineReading.text_put (c : LineReading) (x : List Char) : (c.put x).text = c.text ++ x := by
  unfold LineReading.text LineReading.put
  split
  · rfl
  · rw [List.append_assoc]
    rfl

theorem handled_congr {delivered delivered' : List Delivered}
    (h : delivered.map Delivered.normalized = delivered'.map Delivered.normalized) :
    handled delivered = handled delivered' := by
  have hnormalized : ∀ delivered : List Delivered, handled (delivered.map Delivered.normalized) = handled delivered := by
    intro delivered
    unfold handled
    rw [List.countP_map]
    refine List.countP_congr fun d _ => ?_
    cases d <;> rfl
  rw [← hnormalized delivered, h, hnormalized]

-- ---------------------------------------------------------------------------
-- The ends of lines
-- ---------------------------------------------------------------------------

theorem trim_of_blank (h : ∀ ch ∈ x, isSpace ch = true) : trimAsciiView x = [] := by
  have htrim := Trimming.trim_all_left h []
  rwa [List.append_nil] at htrim

theorem endLine_line (t : PhaseState) : (t.endLine answers).line = [] := by
  unfold PhaseState.endLine
  dsimp only
  split
  · rfl
  · split <;> rfl

theorem endLine_of_blank (h : ∀ ch ∈ t.line, isSpace ch = true) : t.endLine answers = { t with line := [] } := by
  unfold PhaseState.endLine
  rw [trim_of_blank h]
  simp

theorem endLine_append_blank (hch : isSpace ch = true) (t : PhaseState) :
    PhaseState.endLine answers { t with line := t.line ++ [ch] } = t.endLine answers := by
  have htrim : trimAsciiView (t.line ++ [ch]) = trimAsciiView t.line :=
    Trimming.trim_all_right t.line (by simpa using hch)
  unfold PhaseState.endLine
  dsimp only
  rw [htrim]

theorem endLine_blank {r : ScanRun} (hcontinuation : r.state.inPreprocessorContinuation = false)
    (h : ∀ ch ∈ x, isSpace ch = true) (inBlockComment : Bool) :
    r.endLine answers x inBlockComment =
      { r with state := r.state.nextLine inBlockComment } := by
  unfold ScanRun.endLine ScanStreamState.nextLine
  rw [trim_of_blank h]
  simp [hcontinuation]

variable (answers) in
theorem Settled.endLine (h : Settled c t) (inBlockComment : Bool) : Settled (c.endLine answers inBlockComment) t := by
  unfold LineReading.endLine
  rw [endLine_blank h.continuation h.blank]
  exact ⟨⟨h.alike.active, h.alike.conditionals, h.alike.macros⟩, h.delivered, h.continuation, h.pending,
    fun _ hch => (nomatch hch)⟩

theorem Settled.gap (h : Settled c t) : Settled c.gap t := by
  refine ⟨h.alike, h.delivered, h.continuation, h.pending, ?_⟩
  unfold LineReading.gap appendGap
  dsimp only
  split
  · intro ch hch
    obtain hch | hch := List.mem_append.mp hch
    · exact h.blank ch hch
    · rw [List.mem_singleton.mp hch]
      rfl
  · exact h.blank

variable (answers) in
theorem Settled.through (h : Settled c t) (text : List Char) : Settled (c.through answers text) t := by
  induction text generalizing c with
  | nil => exact h
  | cons ch text ih =>
    rw [LineReading.through]
    split
    · exact ih (h.endLine answers true)
    · exact ih h

theorem normalized_append (h : c.run.delivered.map Delivered.normalized = t.delivered.map Delivered.normalized)
    {d d' : Delivered} (hd : d.normalized = d'.normalized) :
    (c.run.delivered ++ [d]).map Delivered.normalized = (t.delivered ++ [d']).map Delivered.normalized := by
  rw [List.map_append, List.map_append, h, List.map_singleton, List.map_singleton, hd]

theorem InLine.text_eq (h : InLine directive space c t) :
    normalizeScanDirectiveLine c.text = normalizeScanDirectiveLine t.line :=
  h.text.fst

theorem appendPending_pending (s : ScanStreamState) (trimmed : List Char) :
    (s.appendPending trimmed).pendingPreprocessor =
      if trimmed.isEmpty then s.pendingPreprocessor
      else if s.pendingPreprocessor.isEmpty then trimmed
      else s.pendingPreprocessor ++ ' ' :: trimmed := by
  unfold ScanStreamState.appendPending
  split <;> rfl

theorem normalize_appendPending (s : ScanStreamState) (out : List Char) :
    normalizeScanDirectiveLine (s.appendPending (trimAsciiView out)).pendingPreprocessor =
      normalizeScanDirectiveLine
        (if s.pendingPreprocessor.isEmpty then out else s.pendingPreprocessor ++ ' ' :: out) := by
  have htrim : ∀ p : List Char, normalizeScanDirectiveLine (p ++ ' ' :: trimAsciiView out) =
      normalizeScanDirectiveLine (p ++ ' ' :: out) := by
    intro p
    unfold normalizeScanDirectiveLine Squeezing.squeeze
    rw [Squeezing.run_append, Squeezing.run_append, Squeezing.run_cons, Squeezing.run_cons, Squeezing.step_blank rfl]
    exact Squeezing.run_due_trim out
  have hspace : ∀ p : List Char, normalizeScanDirectiveLine (p ++ [' ']) = normalizeScanDirectiveLine p := by
    intro p
    unfold normalizeScanDirectiveLine Squeezing.squeeze
    rw [Squeezing.run_append, Squeezing.run_cons, Squeezing.step_blank rfl]
    rfl
  rw [appendPending_pending]
  cases hout : trimAsciiView out with
  | nil =>
    rw [if_pos List.isEmpty_nil]
    split
    · rename_i hempty
      rw [List.isEmpty_iff.mp hempty, normalize_of_trim_nil hout]
      rfl
    · rw [← htrim, hout, hspace]
  | cons ch rest =>
    rw [if_neg (by simp)]
    split
    · rw [← hout, normalize_trim]
    · rw [← hout, htrim]

theorem Alike.appendPending {s u : ScanStreamState} (h : Alike s u) (trimmed : List Char) :
    Alike (s.appendPending trimmed) u := by
  unfold ScanStreamState.appendPending
  split
  · exact h
  · exact ⟨h.active, h.conditionals, h.macros⟩

theorem trim_head? (x : List Char) : (trimAsciiView x).head? = (ltrimAsciiView x).head? :=
  (trim_head?_eq x).trans (Squeezing.head?_squeeze x)

theorem isEmpty_of_head? (h : x.head? = some ch) : x.isEmpty = false := by
  cases x with
  | nil => cases h
  | cons _ _ => rfl

theorem InLine.endLine_code (h : InLine false space c t) (inBlockComment : Bool) :
    Settled (c.endLine answers inBlockComment) (t.endLine answers) := by
  have hpending := h.pending rfl
  have htext : c.text = c.out := by
    unfold LineReading.text
    rw [hpending]
    rfl
  have hcontinuation : c.run.state.inPreprocessorContinuation = false := by
    rw [h.continuation, hpending]
    rfl
  have hline : normalizeScanDirectiveLine c.out = normalizeScanDirectiveLine t.line := htext ▸ h.text_eq
  obtain ⟨ch, hfront, hhash⟩ := h.front
  rw [htext, ← trim_head?] at hfront
  have hfront' := (trim_head?_congr hline).symm.trans hfront
  have hnot : ch ≠ '#' := beq_eq_false_iff_ne.mp hhash
  have hscan : c.run.endLine answers c.out inBlockComment =
      if c.run.state.currentBranchActive then
        ⟨c.run.state.nextLine inBlockComment, c.run.delivered ++ [.code (trimAsciiView c.out)]⟩
      else { c.run with state := c.run.state.nextLine inBlockComment } := by
    unfold ScanRun.endLine
    dsimp only
    rw [if_neg (by rw [hfront]; simp [ScanStreamState.nextLine, hcontinuation, hnot]), isEmpty_of_head? hfront,
      Bool.not_false, Bool.and_true]
    rfl
  have hphase : t.endLine answers =
      if t.scan.currentBranchActive then
        { t with line := [], delivered := t.delivered ++ [.code (trimAsciiView t.line)] }
      else { t with line := [] } := by
    unfold PhaseState.endLine
    dsimp only
    rw [if_neg (by rw [hfront']; simp [hnot]), isEmpty_of_head? hfront', Bool.not_false, Bool.and_true]
  unfold LineReading.endLine
  rw [hscan, hphase, h.alike.active]
  split
  · refine ⟨⟨h.alike.active, h.alike.conditionals, h.alike.macros⟩, normalized_append h.delivered ?_, hcontinuation,
      hpending, fun _ hch => (nomatch hch)⟩
    rw [Delivered.normalized, Delivered.normalized, normalize_trim, normalize_trim, hline]
  · exact ⟨⟨h.alike.active, h.alike.conditionals, h.alike.macros⟩, h.delivered, hcontinuation, hpending,
      fun _ hch => (nomatch hch)⟩

theorem InLine.isDirective (h : InLine true space c t) :
    (c.run.state.inPreprocessorContinuation || (trimAsciiView c.out).head? == some '#') = true := by
  obtain ⟨ch, hfront, hhash⟩ := h.front
  obtain rfl : ch = '#' := beq_iff_eq.mp hhash
  cases hpending : c.run.state.pendingPreprocessor with
  | nil =>
    unfold LineReading.text at hfront
    rw [hpending, if_pos List.isEmpty_nil, ← trim_head?] at hfront
    rw [hfront, Bool.or_eq_true]
    exact .inr rfl
  | cons first rest =>
    rw [h.continuation, hpending]
    rfl

theorem InLine.endLine_directive (h : InLine true space c t) (inBlockComment : Bool) :
    Settled (c.endLine answers inBlockComment) (t.endLine answers) := by
  obtain ⟨ch, hfront, hhash⟩ := h.front
  obtain rfl : ch = '#' := beq_iff_eq.mp hhash
  have hfront' : (trimAsciiView t.line).head? = some '#' := by
    rw [trim_head?, ← ltrim_head?_congr h.text_eq, hfront]
  have hdirective : ((c.run.state.nextLine inBlockComment).inPreprocessorContinuation ||
      (trimAsciiView c.out).head? == some '#') = true :=
    h.isDirective
  have hpending : normalizeScanDirectiveLine
      ((c.run.state.nextLine inBlockComment).appendPending (trimAsciiView c.out)).pendingPreprocessor =
      normalizeScanDirectiveLine t.line :=
    (normalize_appendPending _ c.out).trans h.text_eq
  have hnext : Alike (c.run.state.nextLine inBlockComment) t.scan :=
    ⟨h.alike.active, h.alike.conditionals, h.alike.macros⟩
  have halike := hnext.appendPending (trimAsciiView c.out)
  have hne : ((c.run.state.nextLine inBlockComment).appendPending (trimAsciiView c.out)).pendingPreprocessor.isEmpty =
      false := by
    refine Bool.eq_false_iff.mpr fun hempty => ?_
    rw [List.isEmpty_iff.mp hempty] at hpending
    rw [trim_head?_eq, ← hpending] at hfront'
    cases hfront'
  unfold LineReading.endLine ScanRun.endLine PhaseState.endLine
  dsimp only
  rw [if_pos hdirective, if_pos hfront', if_neg (by rw [hasTrailing_trim, h.unbroken]; exact Bool.false_ne_true),
    if_neg (by rw [hne]; exact Bool.false_ne_true), handled_congr h.delivered]
  generalize (c.run.state.nextLine inBlockComment).appendPending (trimAsciiView c.out) = s at hpending halike
  have hcomplete : Alike { s with inPreprocessorContinuation := false } t.scan :=
    ⟨halike.active, halike.conditionals, halike.macros⟩
  have hafter := hcomplete.handle (hpending.trans (normalize_trim t.line).symm) (answers (handled t.delivered))
    s.pendingPreprocessorStartLine 0
  refine ⟨⟨hafter.active, hafter.conditionals, hafter.macros⟩, normalized_append h.delivered ?_, ?_, rfl,
    fun _ hch => (nomatch hch)⟩
  · rw [Delivered.normalized, Delivered.normalized, normalize_trim, hpending]
  · exact (handle_flags _ _ _ _).2

theorem InLine.endLine (h : InLine directive space c t) (inBlockComment : Bool) :
    Settled (c.endLine answers inBlockComment) (t.endLine answers) := by
  cases directive with
  | false => exact h.endLine_code inBlockComment
  | true => exact h.endLine_directive inBlockComment

-- ---------------------------------------------------------------------------
-- Tokens and white space
-- ---------------------------------------------------------------------------

/-- A text that begins and ends as a token does. -/
structure TokenText (x : List Char) : Prop where
  front : ∃ ch rest, x = ch :: rest ∧ isSpace ch = false
  back : ∃ init last, x = init ++ [last] ∧ isSpace last = false ∧ last ≠ '\\'

theorem TokenText.unbroken (hx : TokenText x) (out : List Char) : hasTrailingLineContinuation (out ++ x) = false := by
  obtain ⟨init, last, rfl, hspace, hlast⟩ := hx.back
  rw [← List.append_assoc, hasTrailing_letter hspace]
  exact beq_eq_false_iff_ne.mpr hlast

theorem Settled.token (h : Settled c t) (hline : ∀ ch ∈ t.line, isSpace ch = true) (hx : TokenText x) :
    InLine (x.head? == some '#') .tight (c.put x) { t with line := t.line ++ x } := by
  have htext : c.text = c.out := by
    unfold LineReading.text
    rw [h.pending]
    rfl
  obtain ⟨ch, rest, hcons, hch⟩ := hx.front
  refine ⟨h.alike, h.delivered, ?_, fun _ => h.pending, ⟨ch, ?_, ?_⟩, ?_, hx.unbroken c.out⟩
  · exact h.continuation.trans (by rw [show (c.put x).run = c.run from rfl, h.pending]; rfl)
  · have hout : ltrimAsciiView (c.out ++ x) = x := by
      rw [ltrimAsciiView, Trimming.dropWhile_all h.blank, hcons]
      exact List.dropWhile_cons_of_neg (by rw [hch]; exact Bool.false_ne_true)
    rw [LineReading.text_put, htext, hout, hcons]
    rfl
  · rw [hcons]
    rfl
  · rw [LineReading.text_put, htext]
    refine (squeezed_append _ _).trans (Eq.trans ?_ (squeezed_append _ _).symm)
    rw [show squeezed c.out = ([], false) from Squeezing.run_start_blanks h.blank,
      show squeezed t.line = ([], false) from Squeezing.run_start_blanks hline]

/-- Another token behind white space that both have, or that neither has. -/
theorem InLine.token (h : InLine directive space c t) (hspace : space ≠ .owed) (hx : TokenText x) :
    InLine directive .tight (c.put x) { t with line := t.line ++ x } := by
  obtain ⟨ch, hfront, hhash⟩ := h.front
  refine ⟨h.alike, h.delivered, h.continuation, h.pending, ⟨ch, ?_, hhash⟩, ?_, hx.unbroken c.out⟩
  · rw [LineReading.text_put]
    exact front_append hfront x
  · have heq : squeezed c.text = squeezed t.line := by
      have htext := h.text
      cases space with
      | tight => exact htext
      | spaced => exact htext.1
      | owed => exact absurd rfl hspace
    rw [LineReading.text_put]
    refine (squeezed_append _ _).trans (Eq.trans ?_ (squeezed_append _ _).symm)
    rw [heq]

theorem InLine.squeezed_ne_nil (h : InLine directive space c t) : (squeezed t.line).1 ≠ [] := by
  obtain ⟨ch, hfront, -⟩ := h.front
  intro hnil
  have hhead := ltrim_head?_congr h.text_eq
  have hsqueeze : (normalizeScanDirectiveLine t.line).head? = (ltrimAsciiView t.line).head? :=
    Squeezing.head?_squeeze t.line
  rw [hfront, ← hsqueeze, show normalizeScanDirectiveLine t.line = [] from hnil] at hhead
  cases hhead

theorem InLine.whiteSpace {ch : Char} (h : InLine directive space c t) (hch : isSpace ch = true) (hrun : c'.run = c.run)
    (hfront : (ltrimAsciiView c'.text).head? = (ltrimAsciiView c.text).head?)
    (hback : hasTrailingLineContinuation c'.out = hasTrailingLineContinuation c.out)
    (htext : squeezed c'.text = Squeezing.due (squeezed c.text)) :
    InLine directive .spaced c' { t with line := t.line ++ [ch] } := by
  have hmatches : squeezed c'.text = squeezed (t.line ++ [ch]) := by
    rw [squeezed_blank hch, htext, Squeezing.due_congr h.text.fst]
  refine ⟨hrun ▸ h.alike, hrun ▸ h.delivered, hrun ▸ h.continuation, hrun ▸ h.pending, hfront ▸ h.front,
    ⟨hmatches, ?_⟩, hback.trans h.unbroken⟩
  rw [squeezed_blank hch, Squeezing.due, List.isEmpty_eq_false_iff.mpr h.squeezed_ne_nil]
  rfl

theorem InLine.blank {ch : Char} (h : InLine directive space c t) (hch : isSpace ch = true) :
    InLine directive .spaced (c.put [ch]) { t with line := t.line ++ [ch] } := by
  obtain ⟨first, hfront, -⟩ := h.front
  refine h.whiteSpace hch rfl ?_ (hasTrailing_blanks (by simpa using hch) c.out) ?_
  · rw [LineReading.text_put, front_append hfront, hfront]
  · rw [LineReading.text_put, squeezed_blank hch]

/-- A gap is put out unless white space stands last. -/
theorem LineReading.gap_cases (hne : c.text ≠ []) :
    c.gap = c.put [' '] ∨ c.gap = c ∧ ∃ init last, c.text = init ++ [last] ∧ isSpace last = true := by
  unfold LineReading.gap appendGap
  split
  · exact .inl rfl
  · rename_i hlast
    refine .inr ⟨rfl, ?_⟩
    obtain hout | ⟨init, last, hout⟩ := List.eq_nil_or_concat c.out
    · unfold LineReading.text at hne ⊢
      rw [hout] at hne ⊢
      split
      · rename_i hempty
        rw [if_pos hempty] at hne
        exact absurd rfl hne
      · exact ⟨_, ' ', rfl, rfl⟩
    · rw [List.concat_eq_append] at hout
      have hspace : isSpace last = true := by
        rw [hout] at hlast
        simpa using hlast
      unfold LineReading.text
      rw [hout]
      split
      · exact ⟨init, last, rfl, hspace⟩
      · exact ⟨c.run.state.pendingPreprocessor ++ ' ' :: init, last, by rw [List.append_assoc]; rfl, hspace⟩

theorem InLine.text_ne_nil (h : InLine directive space c t) : c.text ≠ [] := by
  obtain ⟨ch, hfront, -⟩ := h.front
  intro hnil
  rw [hnil] at hfront
  cases hfront

theorem InLine.gap_spec (h : InLine directive space c t) :
    (ltrimAsciiView c.gap.text).head? = (ltrimAsciiView c.text).head? ∧
      hasTrailingLineContinuation c.gap.out = hasTrailingLineContinuation c.out ∧
      squeezed c.gap.text = Squeezing.due (squeezed c.text) := by
  obtain ⟨ch, hfront, -⟩ := h.front
  obtain hgap | ⟨hgap, init, last, htext, hlast⟩ := LineReading.gap_cases h.text_ne_nil
  · rw [hgap, LineReading.text_put, front_append hfront, hfront, squeezed_blank rfl]
    exact ⟨rfl, hasTrailing_blanks (by simp [isSpace]) c.out, rfl⟩
  · rw [hgap]
    refine ⟨rfl, rfl, ?_⟩
    rw [htext, squeezed_blank hlast, Squeezing.due_due]

theorem InLine.gap {ch : Char} (h : InLine directive space c t) (hch : isSpace ch = true) :
    InLine directive .spaced c.gap { t with line := t.line ++ [ch] } :=
  h.whiteSpace hch rfl h.gap_spec.1 h.gap_spec.2.1 h.gap_spec.2.2

theorem InLine.gap_again (h : InLine directive .spaced c t) : InLine directive .spaced c.gap t := by
  obtain ⟨hfront, hback, htext⟩ := h.gap_spec
  refine ⟨h.alike, h.delivered, h.continuation, h.pending, hfront ▸ h.front, ⟨?_, h.text.2⟩, hback.trans h.unbroken⟩
  rw [htext, h.text.1]
  exact Squeezing.run_due_of_due h.text.2 h.squeezed_ne_nil

theorem LineReading.through_line (h : x.contains '\n' = false) : c.through answers x = c := by
  induction x generalizing c with
  | nil => rfl
  | cons ch x ih =>
    rw [List.contains_cons, Bool.or_eq_false_iff] at h
    rw [LineReading.through, if_neg, ih h.2]
    rintro rfl
    cases h.1

variable (answers) in
theorem LineReading.through_lines (c : LineReading) (h : x.contains '\n' = true) :
    ∃ rest, c.through answers x = (c.endLine answers true).through answers rest := by
  induction x with
  | nil => cases h
  | cons ch x ih =>
    by_cases hch : ch = '\n'
    · exact ⟨x, by rw [LineReading.through, if_pos hch]⟩
    · obtain ⟨rest, hrest⟩ := ih (by simpa [Ne.symm hch] using h)
      exact ⟨rest, by rw [LineReading.through, if_neg hch, hrest]⟩

-- ---------------------------------------------------------------------------
-- Splices
-- ---------------------------------------------------------------------------

/-- The line in front of a splice is put behind the lines before it. -/
theorem InLine.splice_run {blanks : List Char} (h : InLine true space c t)
    (hblanks : ∀ ch ∈ blanks, isSpace ch = true) :
    ∃ s, (c.put ('\\' :: blanks)).endLine answers false = { run := { c.run with state := s } } ∧ Alike s t.scan ∧
      s.inPreprocessorContinuation = true ∧
      s.pendingPreprocessor =
        rtrimAsciiView (if c.run.state.pendingPreprocessor.isEmpty then ltrimAsciiView c.out
          else c.run.state.pendingPreprocessor ++ ' ' :: ltrimAsciiView c.out) := by
  have htrim : trimAsciiView (c.put ('\\' :: blanks)).out = ltrimAsciiView c.out ++ ['\\'] := trim_backslash hblanks c.out
  have hcontinued : hasTrailingLineContinuation (ltrimAsciiView c.out ++ ['\\']) = true :=
    hasTrailing_letter (by decide) _
  have hdirective : ((c.run.state.nextLine false).inPreprocessorContinuation ||
      (ltrimAsciiView c.out ++ ['\\']).head? == some '#') = true := by
    have hold := h.isDirective
    rw [trim_head?, Bool.or_eq_true, beq_iff_eq] at hold
    rw [Bool.or_eq_true, beq_iff_eq, List.head?_append]
    exact hold.imp_right fun hhead => by rw [hhead]; rfl
  have hnext : Alike (c.run.state.nextLine false) t.scan := ⟨h.alike.active, h.alike.conditionals, h.alike.macros⟩
  have halike := hnext.appendPending (ltrimAsciiView c.out ++ ['\\'])
  unfold LineReading.endLine ScanRun.endLine
  dsimp only
  rw [htrim, show (c.put ('\\' :: blanks)).run = c.run from rfl, if_pos hdirective, if_pos hcontinued]
  refine ⟨_, rfl, ⟨halike.active, halike.conditionals, halike.macros⟩, rfl, ?_⟩
  dsimp only
  rw [appendPending_pending, if_neg (by simp),
    show (c.run.state.nextLine false).pendingPreprocessor = c.run.state.pendingPreprocessor from rfl]
  split
  · exact stripTrailing_backslash _
  · rw [← List.cons_append, ← List.append_assoc]
    exact stripTrailing_backslash _

theorem squeezed_rtrim (x : List Char) : (squeezed (rtrimAsciiView x)).1 = (squeezed x).1 :=
  Squeezing.run_fst_rdropWhile x

/-- A splice is a space for the scan and nothing for phase 2. -/
theorem InLine.splice {blanks : List Char} {next : Mode} (h : InLine true space c t)
    (hblanks : ∀ ch ∈ blanks, isSpace ch = true) (hnext : Mode.behindSplice (.line true space) = some next) :
    Related answers next ((c.put ('\\' :: blanks)).endLine answers false) t := by
  obtain ⟨s, hrun, halike, hcontinuation, hpending⟩ := h.splice_run hblanks
  have hbase : (squeezed s.pendingPreprocessor).1 = (squeezed c.text).1 := by
    rw [hpending, squeezed_rtrim]
    unfold LineReading.text
    split
    · exact Squeezing.squeeze_dropWhile c.out
    · refine (congrArg Prod.fst (squeezed_append _ _)).trans (Eq.trans ?_ (congrArg Prod.fst (squeezed_append _ _)).symm)
      rw [Squeezing.run_cons, Squeezing.run_cons, Squeezing.step_blank rfl, ltrimAsciiView, Squeezing.run_due_dropWhile]
  have hne : s.pendingPreprocessor.isEmpty = false := by
    refine Bool.eq_false_iff.mpr fun hempty => ?_
    rw [List.isEmpty_iff.mp hempty] at hbase
    exact h.squeezed_ne_nil (h.text.fst.symm.trans hbase.symm)
  have htext : LineReading.text { run := { c.run with state := s } } = s.pendingPreprocessor ++ [' '] :=
    if_neg (by rw [hne]; exact Bool.false_ne_true)
  have hsqueezed : squeezed (s.pendingPreprocessor ++ [' ']) = Squeezing.due (squeezed c.text) := by
    rw [squeezed_blank rfl, Squeezing.due_congr hbase]
  obtain ⟨ch, hfront, hhash⟩ := h.front
  have hnormal : normalizeScanDirectiveLine (s.pendingPreprocessor ++ [' ']) = normalizeScanDirectiveLine c.text := by
    have hfst := congrArg Prod.fst hsqueezed
    exact hfst
  have hfront' : (ltrimAsciiView (s.pendingPreprocessor ++ [' '])).head? = some ch :=
    (ltrim_head?_congr hnormal).trans hfront
  have hline : ∀ space', space'.Matches (squeezed (s.pendingPreprocessor ++ [' '])) (squeezed t.line) →
      InLine true space' { run := { c.run with state := s } } t := by
    intro space' hmatches
    refine ⟨halike, h.delivered, ?_, fun htrue => (by cases htrue), ⟨ch, htext ▸ hfront', hhash⟩, htext ▸ hmatches, rfl⟩
    rw [hcontinuation, hne]
    rfl
  rw [hrun]
  cases space with
  | tight =>
    cases hnext
    exact hline .owed (by rw [hsqueezed]; exact h.text.fst)
  | spaced =>
    cases hnext
    refine hline .spaced ⟨?_, h.text.2⟩
    rw [hsqueezed, h.text.1]
    exact Squeezing.run_due_of_due h.text.2 h.squeezed_ne_nil
  | owed =>
    cases hnext
    exact hline .owed (by rw [hsqueezed]; exact h.text.fst)

-- ---------------------------------------------------------------------------
-- Elements
-- ---------------------------------------------------------------------------

theorem unspliced_line (h : x.contains '\n' = false) : unspliced x = x := by
  have hscan : spliceScan x = (x, none) := by
    induction x with
    | nil => rfl
    | cons ch x ih =>
      rw [List.contains_cons, Bool.or_eq_false_iff] at h
      have hch : ch ≠ '\n' := fun heq => by rw [heq] at h; cases h.1
      rw [spliceScan, ih h.2]
      dsimp only
      rw [if_neg hch]
      split
      · rename_i hslash
        rw [hslash]
      · rw [ite_self]
  rw [unspliced, hscan]

theorem TokenText.code {ch : Char} (h : Element.wellFormed (.code ch) = true) : TokenText [ch] := by
  simp only [Element.wellFormed, Bool.and_eq_true, Bool.not_eq_true', bne_iff_ne] at h
  exact ⟨⟨ch, [], rfl, h.1⟩, ⟨[], ch, rfl, h.1, h.2⟩⟩

theorem TokenText.literal {raw : Bool} (h : Element.wellFormed (.literal raw x) = true) :
    TokenText x ∧ (x.head? == some '#') = false := by
  simp only [Element.wellFormed, Bool.and_eq_true] at h
  obtain ⟨hfront, hback⟩ := h
  obtain rfl | ⟨init, last, rfl⟩ := List.eq_nil_or_concat x
  · cases hfront
  · rw [List.concat_eq_append] at hfront hback ⊢
    rw [List.getLast?_concat, Option.any_some, Bool.and_eq_true, Bool.not_eq_true', Bool.not_eq_true'] at hback
    obtain ⟨ch, rest, hcons⟩ := List.exists_cons_of_ne_nil (l := init ++ [last]) (by simp)
    rw [hcons, List.head?_cons, Option.any_some, Bool.and_eq_true, Bool.not_eq_true', Bool.not_eq_true'] at hfront
    refine ⟨⟨⟨ch, rest, hcons, hfront.1⟩, ⟨init, last, rfl, hback.1, ?_⟩⟩, ?_⟩
    · rintro rfl
      cases hback.2
    · rw [hcons, List.head?_cons]
      refine beq_eq_false_iff_ne.mpr fun heq => ?_
      cases heq
      cases hfront.2

theorem Related.token {mode next : Mode} (h : Related answers mode c t) (hx : TokenText x)
    (hnext : mode.behindToken (x.head? == some '#') = some next) :
    Related answers next (c.put x) { t with line := t.line ++ x } := by
  cases mode with
  | start =>
    cases hnext
    exact h.1.token h.2 hx
  | line directive space =>
    cases space with
    | tight =>
      cases hnext
      exact InLine.token h (by decide) hx
    | spaced =>
      cases hnext
      exact InLine.token h (by decide) hx
    | owed => cases hnext
  | ended => cases hnext

theorem blank_append_space {ch : Char} (hx : ∀ ch ∈ x, isSpace ch = true) (hch : isSpace ch = true) :
    ∀ b ∈ x ++ [ch], isSpace b = true := by
  intro b hb
  obtain hb | hb := List.mem_append.mp hb
  · exact hx b hb
  · rw [List.mem_singleton.mp hb, hch]

theorem Related.blank {mode : Mode} {ch : Char} (h : Related answers mode c t) (hch : isSpace ch = true) :
    Related answers mode.behindSpace (c.put [ch]) { t with line := t.line ++ [ch] } := by
  have hsettled : ∀ {t : PhaseState}, Settled c t → Settled (c.put [ch]) t := fun h =>
    ⟨h.alike, h.delivered, h.continuation, h.pending, blank_append_space h.blank hch⟩
  cases mode with
  | start =>
    obtain ⟨hs, hline⟩ := h
    exact ⟨⟨hs.alike, hs.delivered, hs.continuation, hs.pending, blank_append_space hs.blank hch⟩,
      blank_append_space hline hch⟩
  | line directive space => exact InLine.blank h hch
  | ended =>
    unfold Related Mode.behindSpace
    dsimp only
    rw [endLine_append_blank hch]
    exact hsettled h

theorem Related.lineComment {mode : Mode} (h : Related answers mode c t) :
    Related answers mode.behindLineComment c { t with line := t.line ++ [' '] } := by
  cases mode with
  | start =>
    obtain ⟨hs, hline⟩ := h
    exact ⟨⟨hs.alike, hs.delivered, hs.continuation, hs.pending, hs.blank⟩, blank_append_space hline rfl⟩
  | line directive space =>
    have hin : InLine directive space c t := h
    refine ⟨hin.alike, hin.delivered, hin.continuation, hin.pending, hin.front, ?_, hin.unbroken⟩
    dsimp only
    rw [squeezed_blank rfl]
    exact hin.text.fst
  | ended =>
    unfold Related Mode.behindLineComment
    dsimp only
    rw [endLine_append_blank rfl]
    exact h

theorem Related.blockComment {mode : Mode} (h : Related answers mode c t) (text : List Char) :
    Related answers (if text.contains '\n' then mode.behindLines else mode.behindSpace)
      ((c.gap).through answers text).gap { t with line := t.line ++ [' '] } := by
  cases mode with
  | start =>
    obtain ⟨hs, hline⟩ := h
    have hafter := (hs.gap.through answers text).gap
    have hmode : (if text.contains '\n' then Mode.start.behindLines else Mode.start.behindSpace) = .start :=
      ite_self _
    rw [hmode]
    exact ⟨⟨hafter.alike, hafter.delivered, hafter.continuation, hafter.pending, hafter.blank⟩,
      blank_append_space hline rfl⟩
  | line directive space =>
    have hgap := InLine.gap h (show isSpace ' ' = true from rfl)
    cases hlines : text.contains '\n' with
    | true =>
      obtain ⟨rest, hrest⟩ := LineReading.through_lines answers c.gap hlines
      rw [hrest]
      exact ((hgap.endLine true).through answers rest).gap
    | false =>
      rw [LineReading.through_line hlines]
      exact hgap.gap_again
  | ended =>
    have hafter := ((Settled.gap h).through answers text).gap
    have hmode : (if text.contains '\n' then Mode.ended.behindLines else Mode.ended.behindSpace) = .ended :=
      ite_self _
    rw [hmode]
    unfold Related
    dsimp only
    rw [endLine_append_blank rfl]
    exact hafter

theorem Related.newline {mode : Mode} (h : Related answers mode c t) :
    Related answers .start (c.endLine answers false) (t.endLine answers) := by
  have hline : ∀ ch ∈ (t.endLine answers).line, isSpace ch = true := by
    rw [endLine_line]
    exact fun _ hch => (nomatch hch)
  refine ⟨?_, hline⟩
  cases mode with
  | start =>
    obtain ⟨hs, hblank⟩ := h
    rw [endLine_of_blank hblank]
    have hafter := hs.endLine answers false
    exact ⟨hafter.alike, hafter.delivered, hafter.continuation, hafter.pending, hafter.blank⟩
  | line directive space => exact InLine.endLine h false
  | ended => exact Settled.endLine answers h false

/-- The relation is kept by each element that the scan may meet. -/
theorem Related.step {mode next : Mode} {e : Element} (h : Related answers mode c t) (hformed : e.wellFormed = true)
    (hplain : e.plain = true) (hnext : mode.next e = some next) :
    Related answers next (c.step answers e) (t.step answers e) := by
  cases e with
  | blank ch =>
    cases hnext
    simp only [Element.wellFormed, Bool.and_eq_true] at hformed
    exact h.blank hformed.1
  | code ch => exact h.token (TokenText.code hformed) hnext
  | literal raw text =>
    obtain ⟨htoken, hhash⟩ := TokenText.literal hformed
    simp only [Element.plain, Bool.and_eq_true, Bool.not_eq_true'] at hplain
    unfold PhaseState.step
    dsimp only
    rw [unspliced_line hplain.2, ite_self]
    exact h.token htoken (by rw [hhash]; exact hnext)
  | digraph text =>
    obtain rfl : text = ['%', ':'] := beq_iff_eq.mp hplain
    cases mode with
    | start => cases hnext
    | line directive space =>
      have hline : (trimAsciiView t.line).isEmpty = false := by
        refine Bool.eq_false_iff.mpr fun hempty => InLine.squeezed_ne_nil h ?_
        exact normalize_of_trim_nil (List.isEmpty_iff.mp hempty)
      unfold PhaseState.step
      rw [hline, if_neg Bool.false_ne_true]
      exact h.token ⟨⟨'%', [':'], rfl, rfl⟩, ⟨['%'], ':', rfl, rfl, by decide⟩⟩ hnext
    | ended => cases hnext
  | lineComment text =>
    cases hnext
    exact h.lineComment
  | blockComment text =>
    cases hnext
    exact h.blockComment text
  | splice blanks =>
    have hblanks := fun ch hch => (blanks_of_splice hformed ch hch).1
    cases mode with
    | start => cases hnext
    | line directive space =>
      cases directive with
      | true => exact InLine.splice h hblanks hnext
      | false => cases space <;> cases hnext
    | ended => cases hnext
  | newline =>
    cases hnext
    exact h.newline

-- ---------------------------------------------------------------------------
-- Silent lines
-- ---------------------------------------------------------------------------

/-- White space in front of a line stays in front of what is left of it. -/
theorem stripCommentsFrom_blank {inBlockComment : Bool} {out line blanks : List Char}
    (hblanks : ∀ ch ∈ blanks, isSpace ch = true) :
    stripCommentsFrom inBlockComment (blanks ++ out) line =
      (blanks ++ (stripCommentsFrom inBlockComment out line).1, (stripCommentsFrom inBlockComment out line).2) := by
  have hgap : ∀ out, appendGap (blanks ++ out) = blanks ++ appendGap out := by
    intro out
    unfold appendGap
    obtain rfl | ⟨init, last, rfl⟩ := List.eq_nil_or_concat out
    · rw [List.append_nil, List.getLast?_nil]
      cases hlast : blanks.getLast? with
      | none => simp
      | some last => simp [hblanks last (List.mem_of_getLast? hlast)]
    · rw [List.concat_eq_append, ← List.append_assoc, List.getLast?_concat, List.getLast?_concat]
      split
      · rw [List.append_assoc, List.append_assoc, List.append_assoc]
      · rw [List.append_assoc]
  fun_induction stripCommentsFrom inBlockComment out line with
  | case1 inBlockComment out => rw [stripCommentsFrom]
  | case2 out line ih => rw [stripCommentsFrom, hgap, ih]
  | case3 out ch line hclose ih =>
    rw [stripCommentsFrom, ih]
    exact hclose
  | case4 out line ih => rw [stripCommentsFrom, hgap, ih]
  | case5 out line => rw [stripCommentsFrom]
  | case6 out ch line hopen hline ih =>
    rw [stripCommentsFrom, List.append_assoc, ih]
    · exact hopen
    · exact hline

theorem getlines_ne_nil (text : List Char) : getlines (text ++ ['\n']) ≠ [] := by
  cases text with
  | nil => exact List.cons_ne_nil _ _
  | cons ch text =>
    rw [List.cons_append, getlines]
    split
    · exact List.cons_ne_nil _ _
    · split <;> exact List.cons_ne_nil _ _

theorem getlines_append (text rest : List Char) :
    getlines (text ++ '\n' :: rest) = getlines (text ++ ['\n']) ++ getlines rest := by
  induction text with
  | nil => rfl
  | cons ch text ih =>
    rw [List.cons_append, List.cons_append, getlines, getlines]
    split
    · rw [ih, List.cons_append]
    · rw [ih]
      cases hlines : getlines (text ++ ['\n']) with
      | nil => exact absurd hlines (getlines_ne_nil text)
      | cons line lines => rfl

theorem Settled.silentLine (h : Settled c t) {out : List Char} (hhash : (trimAsciiView out).head? ≠ some '#')
    (hactive : (t.scan.currentBranchActive && !(trimAsciiView out).isEmpty) = false) (inBlockComment : Bool) :
    Settled { run := c.run.endLine answers out inBlockComment } t := by
  have hcontinuation : (c.run.state.nextLine inBlockComment).inPreprocessorContinuation = false := h.continuation
  have hscan : (c.run.state.nextLine inBlockComment).currentBranchActive = t.scan.currentBranchActive := h.alike.active
  unfold ScanRun.endLine
  dsimp only
  rw [hcontinuation, Bool.false_or, if_neg (by simpa using hhash), hscan, hactive, if_neg Bool.false_ne_true]
  exact ⟨⟨h.alike.active, h.alike.conditionals, h.alike.macros⟩, h.delivered, hcontinuation, h.pending,
    fun _ hch => absurd hch List.not_mem_nil⟩

theorem Settled.silentLines {r : ScanRun} {lines : List (List Char)} (h : Settled { run := r } t)
    (hsilent : Scan.silentLines t.scan.currentBranchActive r.state.inBlockComment lines = true) :
    ∃ r', lines.foldlM (ScanRun.readLine answers) r = some r' ∧ Settled { run := r' } t ∧
      r'.state.inBlockComment = false := by
  induction lines generalizing r with
  | nil => exact ⟨r, rfl, h, by simpa [Scan.silentLines] using hsilent⟩
  | cons line lines ih =>
    simp only [Scan.silentLines, Bool.and_eq_true, bne_iff_ne, Bool.not_eq_true'] at hsilent
    obtain ⟨⟨hhash, hactive⟩, hrest⟩ := hsilent
    rw [List.foldlM_cons, readLine_eq]
    exact ih (h.silentLine hhash hactive _) (by rw [endLine_inBlockComment]; exact hrest)

theorem Settled.finish_silent (h : Settled c t) {text : List Char}
    (hsilent : Scan.silentLines t.scan.currentBranchActive false (getlines (text ++ ['\n'])) = true)
    (rest : List Char) :
    ∃ r, c.finish answers false (text ++ '\n' :: rest) = LineReading.finish answers { run := r } false rest ∧
      Settled { run := r } t := by
  unfold LineReading.finish
  rw [getlines_append]
  cases hlines : getlines (text ++ ['\n']) with
  | nil => exact absurd hlines (getlines_ne_nil text)
  | cons line lines =>
    rw [hlines] at hsilent
    simp only [Scan.silentLines, Bool.and_eq_true, bne_iff_ne, Bool.not_eq_true'] at hsilent
    obtain ⟨⟨hhash, hactive⟩, hrest⟩ := hsilent
    have hstrip := @stripCommentsFrom_blank false [] line _ h.blank
    rw [List.append_nil] at hstrip
    have htrim : trimAsciiView (stripCommentsFrom false c.out line).1 =
        trimAsciiView (stripCommentsForLineScan line false).1 := by
      rw [hstrip]
      exact Trimming.trim_all_left h.blank _
    rw [← htrim] at hhash hactive
    have hfirst := @Settled.silentLine answers _ _ h _ hhash hactive (stripCommentsFrom false c.out line).2
    obtain ⟨r, hrun, hr, hblock⟩ := @Settled.silentLines answers _ _ lines hfirst (by
      rw [endLine_inBlockComment, hstrip]
      exact hrest)
    refine ⟨r, ?_, hr⟩
    dsimp only [List.cons_append]
    rw [List.foldlM_append, hrun]
    cases getlines rest with
    | nil => rfl
    | cons line' lines' =>
      rw [Option.bind_eq_bind, Option.bind_some, List.foldlM_cons, readLine_eq, hblock]
      rfl

-- ---------------------------------------------------------------------------
-- Sources
-- ---------------------------------------------------------------------------

theorem wellLexed_append_right {front source : List Element} (h : wellLexed (front ++ source) = true) :
    wellLexed source = true := by
  induction front with
  | nil => exact h
  | cons e front ih =>
    rw [List.cons_append, wellLexed, Bool.and_eq_true] at h
    exact ih h.2

theorem spelledText_append (front source : List Element) :
    spelledText (front ++ source) = spelledText front ++ spelledText source :=
  List.flatMap_append

/-- Within a logical line the phases only collect it. -/
theorem foldl_step_of_line {line : List Element} (h : Element.newline ∉ line) (t : PhaseState) :
    ∃ text, line.foldl (PhaseState.step answers) t = { t with line := text } := by
  induction line generalizing t with
  | nil => exact ⟨t.line, rfl⟩
  | cons e line ih =>
    rw [List.mem_cons, not_or] at h
    obtain ⟨text, htext⟩ := ih h.2 (t.step answers e)
    rw [List.foldl_cons, htext]
    cases e with
    | newline => exact absurd rfl h.1
    | _ => exact ⟨text, rfl⟩

/-- A logical line that is skipped leaves the phases where they are. -/
theorem foldl_step_skipped {line : List Element} (hactive : t.scan.currentBranchActive = false)
    (hline : Element.newline ∉ line)
    (hhash : (trimAsciiView (line.foldl (PhaseState.step answers) t).line).head? ≠ some '#') :
    (line ++ [Element.newline]).foldl (PhaseState.step answers) t = { t with line := [] } := by
  obtain ⟨text, htext⟩ := @foldl_step_of_line answers _ hline t
  rw [htext] at hhash
  rw [List.foldl_append, htext]
  unfold List.foldl PhaseState.step PhaseState.endLine
  dsimp only
  rw [if_neg hhash, hactive, Bool.false_and, if_neg Bool.false_ne_true]
  rfl

theorem related_settled {r : ScanRun} (h : Settled { run := r } t) : Related answers .start { run := r } { t with line := [] } :=
  ⟨⟨h.alike, h.delivered, h.continuation, h.pending, h.blank⟩, fun _ hch => absurd hch List.not_mem_nil⟩

/-- Elements that the scan sees as they are, in front of a source that is plain. -/
theorem PlainFrom.of_modes {mode next : Mode} {front source : List Element} (hfront : ∀ e ∈ front, e.plain = true)
    (hnext : front.foldlM Mode.next mode = some next)
    (hplain : PlainFrom answers next (front.foldl (PhaseState.step answers) t) source) :
    PlainFrom answers mode t (front ++ source) := by
  induction front generalizing mode t with
  | nil =>
    cases hnext
    exact hplain
  | cons e front ih =>
    obtain ⟨middle, he, hrest⟩ := Option.bind_eq_some_iff.mp hnext
    exact .step (hfront e (.head _)) he (ih (fun e he => hfront e (.tail _ he)) hrest hplain)

theorem behind_newline {mode : Mode} {line source : List Element}
    (h : (line ++ .newline :: source).getLast? = some .newline ∨ line ++ .newline :: source = [] ∧ mode = .start) :
    source.getLast? = some .newline ∨ source = [] ∧ Mode.start = .start := by
  cases source with
  | nil => exact .inr ⟨rfl, rfl⟩
  | cons e source =>
    obtain hlast | ⟨hnil, -⟩ := h
    · rw [List.getLast?_append_of_ne_nil _ (List.cons_ne_nil _ _), List.getLast?_cons_cons] at hlast
      exact .inl hlast
    · exact absurd hnil (by simp)

/-- Along a plain source the scan and the phases stay related. -/
theorem PlainFrom.run {mode : Mode} {source : List Element} (hplain : PlainFrom answers mode t source)
    (h : Related answers mode c t) (hlexed : wellLexed source = true)
    (hend : source.getLast? = some .newline ∨ source = [] ∧ mode = .start) :
    ∃ r, c.finish answers false (spelledText source) = some r ∧
      r.delivered.map Delivered.normalized =
        (source.foldl (PhaseState.step answers) t).delivered.map Delivered.normalized := by
  induction hplain generalizing c with
  | nil =>
    obtain hlast | ⟨-, rfl⟩ := hend
    · cases hlast
    · exact ⟨c.run, rfl, h.1.delivered⟩
  | @step mode next t e source hplain hnext _ ih =>
    obtain hlast | ⟨hnil, -⟩ := hend
    · have hformed := hlexed
      rw [wellLexed, Bool.and_eq_true, Bool.and_eq_true] at hformed
      rw [finish_element hlexed hplain hlast, List.foldl_cons]
      refine ih (h.step hformed.1.1 hplain hnext) hformed.2 ?_
      cases source with
      | nil =>
        obtain rfl : e = .newline := Option.some.inj hlast
        exact .inr ⟨rfl, (Option.some.inj hnext).symm⟩
      | cons e' source => exact .inl (List.getLast?_cons_cons ▸ hlast)
    · cases hnil
  | @skipped t line source hactive hline hhash hsilent _ ih =>
    obtain ⟨hs, -⟩ := h
    obtain ⟨r, hfinish, hr⟩ := @Settled.finish_silent answers _ _ hs _ (by rw [hactive]; exact hsilent)
      (spelledText source)
    have hskip := foldl_step_skipped hactive hline hhash
    have hsource := @wellLexed_append_right (line ++ [.newline]) _ (by simpa using hlexed)
    obtain ⟨r', hrun, hdelivered⟩ := ih (c := { run := r }) (by rw [hskip]; exact related_settled hr) hsource
      (behind_newline hend)
    refine ⟨r', ?_, ?_⟩
    · rw [spelledText_append, show spelledText (Element.newline :: source) = '\n' :: spelledText source from rfl,
        hfinish, hrun]
    · rw [hdelivered, ← List.foldl_append, List.append_assoc, List.singleton_append]
  | @comment mode t first later source hfirst hsilent _ ih =>
    have hstart : Related answers .start (c.endLine answers false) _ := h.lineComment.newline
    obtain ⟨r, hfinish, hr⟩ := @Settled.finish_silent answers _ _ hstart.1 _ hsilent (spelledText source)
    have hsource := @wellLexed_append_right [.lineComment (first ++ '\n' :: later), .newline] _ hlexed
    obtain ⟨r', hrun, hdelivered⟩ := ih (c := { run := r }) ⟨hr, hstart.2⟩ hsource
      (@behind_newline _ [.lineComment (first ++ '\n' :: later)] _ hend)
    refine ⟨r', ?_, hdelivered⟩
    have hspelled : spelledText (.lineComment (first ++ '\n' :: later) :: .newline :: source) =
        first ++ '\n' :: (later ++ '\n' :: spelledText source) := by
      simp [spelledText, Element.spelled]
    rw [hspelled, finish_lineComment hfirst, finish_newline, hfinish, hrun]

end Gentest.Scan
