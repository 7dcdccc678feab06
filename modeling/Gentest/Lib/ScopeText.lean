import Mathlib.Data.List.Basic
import Mathlib.Data.List.Infix
import Mathlib.Tactic.SplitIfs

/-!
# The scopes of C++ text

One pass over C++ text follows which braces are open. Comments, literals, directives and line
splices are passed over, and a brace inside parentheses or brackets belongs to what is between
them. The head of a scope is the code before its brace, with each run of blanks, comments and
directives as one blank. The text of a conditional group is read whether or not it is included.
-/

namespace ScopeText

-- ---------------------------------------------------------------------------
-- Letters
-- ---------------------------------------------------------------------------

/-- Inside a directive. A newline ends it, but not in a block comment. -/
inductive DirectiveMode
  | text
  | slash
  | comment
  | star
  | literal (double : Bool)
  | escape (double : Bool)
  deriving DecidableEq, Repr

inductive Mode
  | code
  | slash
  | lineComment
  | blockComment
  | star
  | literal (double : Bool)
  | escape (double : Bool)
  | rawDelimiter (delimiter : List Char)
  | raw (delimiter seen : List Char)
  | directive (d : DirectiveMode)
  deriving DecidableEq, Repr

/-- Where the pass is. Lists are reversed: the word that is being read, and the head of the
scope that may follow. A backslash is kept back, since a newline would splice it. -/
structure Lexer where
  mode : Mode := .code
  spliced : Bool := false
  /-- Only blanks and comments stand before on the line. -/
  lineStart : Bool := true
  word : List Char := []
  depth : Nat := 0
  head : List Char := []
  deriving DecidableEq, Repr

inductive Event
  | opened (head : List Char)
  | closed
  deriving DecidableEq, Repr

def isBlank (ch : Char) : Bool := [' ', '\t', '\n', '\x0b', '\x0c', '\r'].contains ch

def quoteOf (double : Bool) : Char := if double then '"' else '\''

def isWordChar (ch : Char) : Bool := ch.isAlphanum || ch = '_' || 128 ≤ ch.toNat

def rawPrefixes : List (List Char) := [['R'], ['L', 'R'], ['u', 'R'], ['U', 'R'], ['u', '8', 'R']]

/-- The backslash that is kept back is dropped. -/
def Lexer.unspliced (l : Lexer) : Lexer := { l with spliced := false }

def Lexer.blank (l : Lexer) (ch : Char) : Lexer :=
  { l with
    lineStart := l.lineStart || ch == '\n'
    word := []
    head := if l.head.head?.all (· = ' ') then l.head else ' ' :: l.head }

def Lexer.put (l : Lexer) (ch : Char) : Lexer :=
  { l with lineStart := false, word := if isWordChar ch then ch :: l.word else [], head := ch :: l.head }

def Lexer.inside (l : Lexer) (ch : Char) (mode : Mode) : Lexer :=
  { l with mode, lineStart := false, word := [], head := ch :: l.head }

def Lexer.next : Lexer := { lineStart := false }

def Lexer.finished (l : Lexer) : List Char := (l.head.dropWhile (· = ' ')).reverse

/-- Whether the word is a number, in which a quote separates digits. -/
def Lexer.inNumber (l : Lexer) : Bool := l.word.getLast?.any Char.isDigit

def codeStep (l : Lexer) (ch : Char) : Lexer × Option Event :=
  if isBlank ch then (l.blank ch, none)
  else if ch = '#' && l.lineStart then ({ l with mode := .directive .text }, none)
  else if ch = '/' then ({ l with mode := .slash, word := [] }, none)
  else if ch = '"' then
    (l.inside ch (if l.word.reverse ∈ rawPrefixes then .rawDelimiter [] else .literal true), none)
  else if ch = '\'' && !l.inNumber then (l.inside ch (.literal false), none)
  else if ch = '(' || ch = '[' then ({ l.put ch with depth := l.depth + 1 }, none)
  else if ch = ')' || ch = ']' then ({ l.put ch with depth := l.depth - 1 }, none)
  else if 0 < l.depth then (l.put ch, none)
  else if ch = '{' then (.next, some (.opened l.finished))
  else if ch = '}' then (.next, some .closed)
  else if ch = ';' then (.next, none)
  else (l.put ch, none)

def directiveStep (l : Lexer) (d : DirectiveMode) (ch : Char) : Lexer :=
  match d with
  | .comment => { l with mode := .directive (if ch = '*' then .star else .comment) }
  | .star => { l with mode := .directive (if ch = '/' then .text else if ch = '*' then .star else .comment) }
  | .literal double =>
    if ch = '\n' then { l with mode := .code }.blank ch
    else { l with mode := .directive (if ch = '\\' then .escape double else if ch = quoteOf double then .text else .literal double) }
  | .escape double =>
    if ch = '\n' then { l with mode := .code }.blank ch else { l with mode := .directive (.literal double) }
  | .text =>
    if ch = '\n' then { l with mode := .code }.blank ch
    else
      { l with
        mode := .directive (if ch = '/' then .slash else if ch = '"' then .literal true
          else if ch = '\'' then .literal false else .text) }
  | .slash =>
    if ch = '\n' then { l with mode := .code }.blank ch
    else if ch = '/' then { l with mode := .lineComment }
    else
      { l with
        mode := .directive (if ch = '*' then .comment else if ch = '"' then .literal true
          else if ch = '\'' then .literal false else .text) }

def plainStep (l : Lexer) (ch : Char) : Lexer × Option Event :=
  match l.mode with
  | .code => codeStep l ch
  | .slash =>
    if ch = '/' then ({ l with mode := .lineComment }, none)
    else if ch = '*' then ({ l with mode := .blockComment }, none)
    else codeStep ({ l with mode := .code }.put '/') ch
  | .lineComment => (if ch = '\n' then { l with mode := .code }.blank ch else l, none)
  | .blockComment => (if ch = '*' then { l with mode := .star } else l, none)
  | .star =>
    (if ch = '/' then { l with mode := .code }.blank ' '
      else if ch = '*' then l
      else { l with mode := .blockComment }, none)
  | .literal double =>
    (l.inside ch (if ch = '\\' then .escape double else if ch = quoteOf double then .code else .literal double), none)
  | .escape double => (l.inside ch (.literal double), none)
  | .rawDelimiter delimiter =>
    (l.inside ch (if ch = '(' then .raw delimiter [] else .rawDelimiter (ch :: delimiter)), none)
  | .raw delimiter seen =>
    (l.inside ch (if ch = '"' && (delimiter ++ [')']).isPrefixOf seen then .code else .raw delimiter (ch :: seen)), none)
  | .directive d => (directiveStep l d ch, none)

def Mode.isRaw : Mode → Bool
  | .rawDelimiter _ | .raw _ _ => true
  | _ => false

def step (l : Lexer) (ch : Char) : Lexer × Option Event :=
  if l.mode.isRaw then plainStep l ch
  else if l.spliced then
    if ch = '\n' then (l.unspliced, none)
    else
      let l := (plainStep l.unspliced '\\').1
      if ch = '\\' then ({ l with spliced := true }, none) else plainStep l ch
  else if ch = '\\' then ({ l with spliced := true }, none)
  else plainStep l ch

-- ---------------------------------------------------------------------------
-- Texts
-- ---------------------------------------------------------------------------

/-- The heads of the open scopes are kept with the innermost first. -/
structure Reader where
  lexer : Lexer := {}
  scopes : List (List Char) := []
  deriving DecidableEq, Repr

def Event.apply (scopes : List (List Char)) : Event → List (List Char)
  | .opened head => head :: scopes
  | .closed => scopes.tail

def Reader.step (r : Reader) (ch : Char) : Reader where
  lexer := (ScopeText.step r.lexer ch).1
  scopes := ((ScopeText.step r.lexer ch).2.map (Event.apply r.scopes)).getD r.scopes

def Reader.read (r : Reader) (text : List Char) : Reader := text.foldl Reader.step r

def lex (l : Lexer) (text : List Char) : Lexer := text.foldl (fun l ch => (step l ch).1) l

def events (l : Lexer) : List Char → List Event
  | [] => []
  | ch :: text => (step l ch).2.toList ++ events (step l ch).1 text

variable {l : Lexer} {r : Reader} {ch : Char} {text text' head : List Char}

theorem lex_append (l : Lexer) (text text' : List Char) : lex l (text ++ text') = lex (lex l text) text' :=
  List.foldl_append

theorem events_append (l : Lexer) (text text' : List Char) :
    events l (text ++ text') = events l text ++ events (lex l text) text' := by
  induction text generalizing l with
  | nil => rfl
  | cons ch text ih =>
    rw [List.cons_append, events, events, ih, List.append_assoc]
    rfl

def Lexer.InCode (l : Lexer) : Prop := l.mode = .code ∨ l.mode = .slash

/-- A slash that is kept back is read as it is. -/
def Lexer.unslash (l : Lexer) : Lexer := if l.mode = .slash then { l with mode := .code }.put '/' else l

/-- The letters that are kept back are read as they are. -/
def Lexer.flush (l : Lexer) : Lexer :=
  if l.spliced then l.unspliced.unslash.put '\\' else l.unslash

theorem codeStep_opened (h : (codeStep l ch).2 = some (.opened head)) : ch = '{' ∧ l.depth = 0 := by
  unfold codeStep at h
  iterate 7 (split at h; · cases h)
  split at h
  · cases h
  · rename_i hdepth
    split at h
    · rename_i hbrace
      exact ⟨hbrace, Nat.eq_zero_of_not_pos hdepth⟩
    · split at h
      · cases h
      · split at h <;> cases h

theorem plainStep_opened (h : (plainStep l ch).2 = some (.opened head)) : ch = '{' ∧ l.InCode ∧ l.depth = 0 := by
  unfold plainStep at h
  split at h
  case h_1 hmode =>
    obtain ⟨hbrace, hdepth⟩ := codeStep_opened h
    exact ⟨hbrace, .inl hmode, hdepth⟩
  case h_2 hmode =>
    split_ifs at h
    obtain ⟨hbrace, hdepth⟩ := codeStep_opened h
    exact ⟨hbrace, .inr hmode, hdepth⟩
  all_goals cases h

theorem codeStep_backslash (l : Lexer) : codeStep l '\\' = (l.put '\\', none) := by
  have hquote : ¬ (decide ('\\' = '\'') && !l.inNumber) = true := Bool.false_ne_true
  have hdirective : ¬ (decide ('\\' = '#') && l.lineStart) = true := Bool.false_ne_true
  rw [codeStep, if_neg (by decide), if_neg hdirective, if_neg (by decide), if_neg (by decide), if_neg hquote,
    if_neg (by decide), if_neg (by decide)]
  split
  · rfl
  · rw [if_neg (by decide), if_neg (by decide), if_neg (by decide)]

theorem codeStep_blank (h : isBlank ch = true) : codeStep l ch = (l.blank ch, none) := if_pos h

theorem codeStep_brace (hdepth : l.depth = 0) : codeStep l '{' = (.next, some (.opened l.finished)) := by
  have hquote : ¬ (decide ('{' = '\'') && !l.inNumber) = true := Bool.false_ne_true
  have hdirective : ¬ (decide ('{' = '#') && l.lineStart) = true := Bool.false_ne_true
  rw [codeStep, if_neg (by decide), if_neg hdirective, if_neg (by decide), if_neg (by decide), if_neg hquote,
    if_neg (by decide), if_neg (by decide), if_neg (by rw [hdepth]; exact lt_irrefl 0), if_pos rfl]

theorem plainStep_inCode (h : l.InCode) (hslash : ch ≠ '/') (hstar : ch ≠ '*') :
    plainStep l ch = codeStep l.unslash ch := by
  obtain hmode | hmode := h
  · rw [Lexer.unslash, if_neg (by rw [hmode]; exact Mode.noConfusion)]
    unfold plainStep
    rw [hmode]
  · rw [Lexer.unslash, if_pos hmode]
    unfold plainStep
    rw [hmode]
    exact (if_neg hslash).trans (if_neg hstar)

theorem not_isRaw (h : l.InCode) : ¬ l.mode.isRaw = true := by
  obtain hmode | hmode := h <;> rw [hmode] <;> exact Bool.noConfusion

theorem mode_unslash (h : l.InCode) : l.unslash.mode = .code := by
  unfold Lexer.unslash
  split
  · rfl
  · exact h.resolve_right ‹_›

theorem step_inCode (h : l.InCode) (hslash : ch ≠ '/') (hstar : ch ≠ '*') (hback : ch ≠ '\\')
    (hsplice : l.spliced = true → ch ≠ '\n') : step l ch = codeStep l.flush ch := by
  rw [step, if_neg (not_isRaw h), Lexer.flush]
  cases hspliced : l.spliced with
  | false => rw [if_neg Bool.false_ne_true, if_neg Bool.false_ne_true, if_neg hback, plainStep_inCode h hslash hstar]
  | true =>
    have hcode : l.unspliced.InCode := h
    have hbackslash : plainStep l.unspliced '\\' = (l.unspliced.unslash.put '\\', none) := by
      rw [plainStep_inCode hcode (by decide) (by decide), codeStep_backslash]
    have hmode : (l.unspliced.unslash.put '\\').mode = .code := mode_unslash hcode
    rw [if_pos rfl, if_pos rfl, if_neg (hsplice hspliced), hbackslash]
    simp only [if_neg hback]
    rw [plainStep_inCode (.inl hmode) hslash hstar, Lexer.unslash, if_neg (by rw [hmode]; exact Mode.noConfusion)]

theorem depth_flush (l : Lexer) : l.flush.depth = l.depth := by
  unfold Lexer.flush Lexer.unslash
  split <;> split <;> rfl

theorem step_brace (h : l.InCode) (hdepth : l.depth = 0) : step l '{' = (.next, some (.opened l.flush.finished)) := by
  rw [step_inCode h (by decide) (by decide) (by decide) (fun _ => by decide), codeStep_brace]
  rw [depth_flush, hdepth]

theorem inCode_of_backslash (hraw : ¬ l.mode.isRaw = true) (h : (plainStep l '\\').1.InCode) :
    l.InCode ∧ (plainStep l '\\').1.depth = l.depth := by
  by_cases hcode : l.InCode
  · rw [plainStep_inCode hcode (by decide) (by decide), codeStep_backslash]
    refine ⟨hcode, ?_⟩
    unfold Lexer.unslash
    split <;> rfl
  · unfold plainStep at h
    split at h
    case h_1 hmode => exact absurd (.inl hmode) hcode
    case h_2 hmode => exact absurd (.inr hmode) hcode
    case h_3 hmode =>
      rw [if_neg (by decide)] at h
      exact absurd h hcode
    case h_4 hmode =>
      rw [if_neg (by decide)] at h
      exact absurd h hcode
    case h_5 hmode =>
      rw [if_neg (by decide), if_neg (by decide)] at h
      obtain h | h := h <;> cases h
    case h_6 hmode =>
      rw [if_pos rfl] at h
      obtain h | h := h <;> cases h
    case h_7 hmode => obtain h | h := h <;> cases h
    case h_8 hmode => exact absurd (by rw [hmode]; rfl) hraw
    case h_9 hmode => exact absurd (by rw [hmode]; rfl) hraw
    case h_10 d hmode =>
      cases d <;> obtain h | h := h <;> cases h

/-- Only a brace in code, outside parentheses, opens a scope. -/
theorem step_opened (h : (step l ch).2 = some (.opened head)) : ch = '{' ∧ l.InCode ∧ l.depth = 0 := by
  by_cases hraw : l.mode.isRaw = true
  · rw [step, if_pos hraw] at h
    exact plainStep_opened h
  rw [step, if_neg hraw] at h
  by_cases hspliced : l.spliced = true
  · rw [if_pos hspliced] at h
    by_cases hnewline : ch = '\n'
    · rw [if_pos hnewline] at h
      cases h
    rw [if_neg hnewline] at h
    by_cases hback : ch = '\\'
    · rw [if_pos hback] at h
      cases h
    rw [if_neg hback] at h
    obtain ⟨hbrace, hcode, hdepth⟩ := plainStep_opened h
    obtain ⟨hcode', hsame⟩ := inCode_of_backslash (l := l.unspliced) hraw hcode
    exact ⟨hbrace, hcode', hsame ▸ hdepth⟩
  · rw [if_neg hspliced] at h
    by_cases hback : ch = '\\'
    · rw [if_pos hback] at h
      cases h
    · rw [if_neg hback] at h
      exact plainStep_opened h

-- ---------------------------------------------------------------------------
-- Blanks
-- ---------------------------------------------------------------------------

theorem ne_of_isBlank (h : isBlank ch = true) {other : Char} (hother : isBlank other = false) : ch ≠ other := by
  rintro rfl
  rw [h] at hother
  cases hother

/-- In code a blank is a blank, whichever it is, unless it is a newline that is spliced. -/
theorem step_blank (h : l.InCode) (hblank : isBlank ch = true) (hsplice : l.spliced = true → ch ≠ '\n') :
    step l ch = (l.flush.blank ch, none) := by
  rw [step_inCode h (ne_of_isBlank hblank (by decide)) (ne_of_isBlank hblank (by decide))
    (ne_of_isBlank hblank (by decide)) hsplice, codeStep_blank hblank]

/-- In a line comment or in a directive, outside its block comments. -/
def Mode.endsAtLine : Mode → Bool
  | .lineComment | .directive .text | .directive .slash | .directive (.literal _) | .directive (.escape _) => true
  | _ => false

/-- In a literal or in a comment that no newline ends. -/
def Lexer.Elsewhere (l : Lexer) : Prop := ¬ l.InCode ∧ l.mode.endsAtLine = false

theorem elsewhere_of (hcode : l.mode ≠ .code) (hslash : l.mode ≠ .slash) (hline : l.mode.endsAtLine = false) :
    l.Elsewhere :=
  ⟨fun h => h.elim hcode hslash, hline⟩

theorem plainStep_elsewhere (h : l.Elsewhere) (hch : isBlank ch = true ∨ ch = '\\') : (plainStep l ch).1.Elsewhere := by
  obtain ⟨hcode, hline⟩ := h
  have hne : ∀ other, isBlank other = false → other ≠ '\\' → ch ≠ other := fun other hother hback =>
    hch.elim (fun hblank => ne_of_isBlank hblank hother) (fun h => h ▸ hback.symm)
  unfold plainStep
  split
  case h_1 hmode => exact absurd (.inl hmode) hcode
  case h_2 hmode => exact absurd (.inr hmode) hcode
  case h_3 hmode =>
    rw [hmode] at hline
    cases hline
  case h_4 hmode =>
    rw [if_neg (hne '*' (by decide) (by decide))]
    exact ⟨hcode, hline⟩
  case h_5 hmode =>
    rw [if_neg (hne '/' (by decide) (by decide)), if_neg (hne '*' (by decide) (by decide))]
    exact elsewhere_of Mode.noConfusion Mode.noConfusion rfl
  case h_6 double hmode =>
    rw [if_neg (hne (quoteOf double) (by cases double <;> decide) (by cases double <;> decide))]
    split
    · exact elsewhere_of Mode.noConfusion Mode.noConfusion rfl
    · exact elsewhere_of Mode.noConfusion Mode.noConfusion rfl
  case h_7 hmode => exact elsewhere_of Mode.noConfusion Mode.noConfusion rfl
  case h_8 hmode =>
    rw [if_neg (hne '(' (by decide) (by decide))]
    exact elsewhere_of Mode.noConfusion Mode.noConfusion rfl
  case h_9 hmode =>
    rw [decide_eq_false (hne '"' (by decide) (by decide)), Bool.false_and, if_neg Bool.false_ne_true]
    exact elsewhere_of Mode.noConfusion Mode.noConfusion rfl
  case h_10 d hmode =>
    rw [hmode] at hline
    cases d with
    | comment =>
      unfold directiveStep
      rw [if_neg (hne '*' (by decide) (by decide))]
      exact elsewhere_of Mode.noConfusion Mode.noConfusion rfl
    | star =>
      unfold directiveStep
      rw [if_neg (hne '/' (by decide) (by decide)), if_neg (hne '*' (by decide) (by decide))]
      exact elsewhere_of Mode.noConfusion Mode.noConfusion rfl
    | text | slash | literal | escape => cases hline

theorem step_elsewhere (h : l.Elsewhere) (hblank : isBlank ch = true) : (step l ch).1.Elsewhere := by
  rw [step]
  split
  · exact plainStep_elsewhere h (.inl hblank)
  · split
    · split
      · exact h
      · rw [if_neg (ne_of_isBlank hblank (by decide))]
        exact plainStep_elsewhere (plainStep_elsewhere (l := l.unspliced) h (.inr rfl)) (.inl hblank)
    · rw [if_neg (ne_of_isBlank hblank (by decide))]
      exact plainStep_elsewhere h (.inl hblank)

theorem lex_elsewhere (h : l.Elsewhere) (hblank : ∀ ch ∈ text, isBlank ch = true) : (lex l text).Elsewhere := by
  induction text generalizing l with
  | nil => exact h
  | cons ch text ih =>
    obtain ⟨hch, htext⟩ := List.forall_mem_cons.mp hblank
    exact ih (step_elsewhere h hch) htext

theorem finished_blank (l : Lexer) (ch : Char) : (l.blank ch).finished = l.finished := by
  unfold Lexer.blank Lexer.finished
  dsimp only
  split
  · rfl
  · exact congrArg List.reverse (List.dropWhile_cons_of_pos rfl)

structure Lexer.Settled (l : Lexer) : Prop where
  mode : l.mode = .code
  spliced : l.spliced = false

theorem settled_flush (h : l.InCode) : l.flush.Settled := by
  unfold Lexer.flush
  split
  · exact ⟨mode_unslash (l := l.unspliced) h, by unfold Lexer.unslash; split <;> rfl⟩
  · rename_i hspliced
    refine ⟨mode_unslash h, ?_⟩
    unfold Lexer.unslash
    split <;> exact Bool.not_eq_true _ ▸ hspliced

theorem Lexer.Settled.flush_eq (h : l.Settled) : l.flush = l := by
  unfold Lexer.flush Lexer.unslash
  rw [if_neg (by simp [h.spliced]), if_neg (by simp [h.mode])]

theorem Lexer.Settled.blank (h : l.Settled) (ch : Char) : (l.blank ch).Settled := ⟨h.mode, h.spliced⟩

theorem Lexer.Settled.inCode (h : l.Settled) : l.InCode := .inl h.mode

theorem Lexer.Settled.step_blank (h : l.Settled) (hblank : isBlank ch = true) : (step l ch).1 = l.blank ch := by
  rw [ScopeText.step_blank h.inCode hblank (fun hspliced => by simp [h.spliced] at hspliced), h.flush_eq]

theorem lex_blanks (h : l.Settled) (hblank : ∀ ch ∈ text, isBlank ch = true) :
    (lex l text).Settled ∧ (lex l text).depth = l.depth ∧ (lex l text).finished = l.finished := by
  induction text generalizing l with
  | nil => exact ⟨h, rfl, rfl⟩
  | cons ch text ih =>
    obtain ⟨hch, htext⟩ := List.forall_mem_cons.mp hblank
    have hcons : lex l (ch :: text) = lex (step l ch).1 text := rfl
    rw [hcons, h.step_blank hch]
    obtain ⟨hsettled, hdepth, hfinished⟩ := ih (h.blank ch) htext
    exact ⟨hsettled, hdepth, hfinished.trans (finished_blank l ch)⟩

/-- A brace behind blanks opens the scope that it opens behind a space, unless the blanks end a line
comment or splice lines. -/
theorem opened_behind_space (hblank : ∀ ch ∈ text, isBlank ch = true) (hline : l.mode.endsAtLine = false)
    (hsplice : l.spliced = true → text.head? ≠ some '\n') (h : (step (lex l text) '{').2 = some (.opened head)) :
    (step (step l ' ').1 '{').2 = some (.opened head) := by
  have hcode : l.InCode := by
    by_contra hcode
    obtain ⟨-, hafter, -⟩ := step_opened h
    exact (lex_elsewhere ⟨hcode, hline⟩ hblank).1 hafter
  have hsettled := settled_flush hcode
  have hbehind : l.depth = 0 → (step (step l ' ').1 '{').2 = some (.opened l.flush.finished) := by
    intro hdepth
    have hspace := hsettled.blank ' '
    rw [step_blank hcode (by decide) (fun _ => by decide), step_brace hspace.inCode ((depth_flush l).trans hdepth),
      hspace.flush_eq, finished_blank]
  cases text with
  | nil =>
    obtain ⟨-, -, hdepth⟩ := step_opened h
    have hdepth : l.depth = 0 := hdepth
    have h : (step l '{').2 = some (.opened head) := h
    rw [step_brace hcode hdepth] at h
    rw [hbehind hdepth, ← h]
  | cons ch text =>
    obtain ⟨hch, htext⟩ := List.forall_mem_cons.mp hblank
    have hcons : lex l (ch :: text) = lex (step l ch).1 text := rfl
    rw [hcons, step_blank hcode hch (fun hspliced hnewline => hsplice hspliced (congrArg some hnewline))] at h
    obtain ⟨hafter, hdepth, hfinished⟩ := lex_blanks (hsettled.blank ch) htext
    obtain ⟨-, -, hzero⟩ := step_opened h
    have hdepth : l.depth = 0 := (depth_flush l).symm.trans (hdepth.symm.trans hzero)
    rw [step_brace hafter.inCode hzero, hafter.flush_eq, hfinished, finished_blank] at h
    rw [hbehind hdepth, ← h]

end ScopeText
