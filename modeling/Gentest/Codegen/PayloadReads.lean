import Gentest.Codegen.CommentedSpecifier
import Gentest.Lib.Trimming

/-!
# The scanner that knows comments

Over an item of a list the scanner keeps its text and ends where it began, outside
of comments, literals and brackets, whatever the comments say.
-/

namespace Gentest.Codegen

open Scanner Trimming

namespace PayloadScan

/-- Outside of comments and literals. -/
def outside (candidates misScoped : List (List Char)) (depth : Nat) (text : List Char) : PayloadScan :=
  { nestingDepth := depth, token := text, candidates := candidates, misScopedGentest := misScoped }

def insideLiteral (st : PayloadScan) : Bool := st.rawString.isSome || st.quoted.isSome || decide (0 < st.jump)

section

variable (candidates misScoped : List (List Char)) (depth : Nat)

theorem marksLiterals (quote : Char) :
    MarksLiterals PayloadScan.step insideLiteral '\\' quote (outside candidates misScoped depth)
      (fun text escape => { outside candidates misScoped depth text with quoted := some (quote, escape) }) where
  steps text before rest ch escape := by
    cases hstep : literalStep '\\' quote escape ch
    all_goals simp [PayloadScan.step, nextQuoted, hstep, outside]
  outside text := rfl
  within text escape := rfl

theorem readsRaw :
    ReadsRaw PayloadScan.step insideLiteral
      (fun delimiter n text =>
        { outside candidates misScoped depth text with rawString := some delimiter, jump := n })
      (fun n text => { outside candidates misScoped depth text with jump := n }) where
  jumps delimiter n text before ch rest := by simp [PayloadScan.step, outside]
  stays delimiter text before ch rest h := by
    rw [PayloadScan.step, if_neg (Nat.lt_irrefl 0)]
    simp only [outside, if_neg h]
  closes delimiter text before rest h := by
    rw [PayloadScan.step, if_neg (Nat.lt_irrefl 0)]
    simp only [outside, h, and_self, ↓reduceIte]
  ends n text before ch rest := by simp [PayloadScan.step, outside]
  within delimiter n text := rfl
  ending n text := by simp [insideLiteral, outside]

variable {candidates misScoped depth}

theorem step_code {ch : Char} (hspelled : (Token.code ch).Spelled) {rest : List Char}
    (htry : tryStartRawString (ch :: rest) = none) (hcomment : ¬(ch = '/' ∧ (rest.head? = some '/' ∨ rest.head? = some '*')))
    (hcomma : ¬(ch = ',' ∧ depth = 0)) (text before : List Char) :
    PayloadScan.step (outside candidates misScoped depth text) before ch rest =
      .ok (outside candidates misScoped depth (text ++ [ch])) := by
  obtain ⟨hstring, hchar, hopening, hclosing⟩ := hspelled
  have hline : ¬(ch = '/' ∧ rest.head? = some '/') := fun h => hcomment ⟨h.1, .inl h.2⟩
  have hblock : ¬(ch = '/' ∧ rest.head? = some '*') := fun h => hcomment ⟨h.1, .inr h.2⟩
  simp [PayloadScan.step, PayloadScan.codeStep, outside, hline, hblock, htry, hstring, hchar, hopening, hclosing, hcomma]

theorem tryStartRawString_raw {delimiter : List Char} (hquote : '"' ∉ delimiter)
    (h : ∀ ch ∈ delimiter, ch ≠ '(' ∧ ch ≠ ')' ∧ ch ≠ '\\' ∧ isSpace ch = false) (rest : List Char) :
    tryStartRawString ('R' :: '"' :: (delimiter ++ '(' :: rest)) = some delimiter := by
  refine rawDelimiter_append (fun ch hch => ?_) rest
  obtain ⟨hopen, hclose, hmark, hspace⟩ := h ch hch
  have hstring : ch ≠ '"' := fun heq => hquote (heq ▸ hch)
  exact ⟨by simp [isRawStringDelimiterChar, hopen, hclose, hmark, hspace, hstring], hopen⟩

theorem reads_raw {start delimiter content : List Char} (h : (Token.raw start delimiter content).Spelled)
    (hquote : '"' ∉ delimiter) (text before rest : List Char) :
    Reads PayloadScan.step (outside candidates misScoped depth text) before (Token.raw start delimiter content).text
      rest (outside candidates misScoped depth (text ++ (Token.raw start delimiter content).text)) := by
  obtain ⟨hstart, hdelimiter, hcontent⟩ := h
  have hletters : ∀ start ∈ rawStringPrefixes, ∃ lead, start = lead ++ ['R', '"'] ∧ ∀ ch ∈ lead, ch ∈ ['u', 'U', 'L', '8'] := by
    intro start hstart
    simp only [rawStringPrefixes, List.mem_cons, List.not_mem_nil, or_false] at hstart
    obtain rfl | rfl | rfl | rfl | rfl := hstart
    · exact ⟨[], rfl, by decide⟩
    · exact ⟨['u'], rfl, by decide⟩
    · exact ⟨['U'], rfl, by decide⟩
    · exact ⟨['L'], rfl, by decide⟩
    · exact ⟨['u', '8'], rfl, by decide⟩
  obtain ⟨lead, rfl, hlead⟩ := hletters start hstart
  have hletter : ∀ ch ∈ lead, ∀ rest text before, PayloadScan.step (outside candidates misScoped depth text) before ch rest =
      .ok (outside candidates misScoped depth (text ++ [ch])) := by
    intro ch hch rest text before
    have hmem := hlead ch hch
    simp only [List.mem_cons, List.not_mem_nil, or_false] at hmem
    obtain rfl | rfl | rfl | rfl := hmem
    all_goals exact step_code ⟨by decide, by decide, rfl, rfl⟩ rfl (fun h => by cases h.1) (fun h => by cases h.1) text before
  have hfront : Reads PayloadScan.step (outside candidates misScoped depth text) before lead
      ('R' :: (['"'] ++ (delimiter ++ ['(']) ++ (content ++ ((')' :: delimiter) ++ ['"']))) ++ rest)
      (outside candidates misScoped depth (text ++ lead)) := by
    refine reads_plain (fun done ch left hdone text before => ?_) text before
    exact hletter ch (by simp [hdone]) _ text before
  have hfirst : ∀ text before, PayloadScan.step (outside candidates misScoped depth text) before 'R'
      (['"'] ++ (delimiter ++ ['(']) ++ (content ++ ((')' :: delimiter) ++ ['"']) ++ rest)) =
      .ok { outside candidates misScoped depth (text ++ ['R']) with
        rawString := some delimiter, jump := (['"'] ++ (delimiter ++ ['('])).length } := by
    intro text before
    have htry := tryStartRawString_raw hquote hdelimiter (content ++ ((')' :: delimiter) ++ ['"']) ++ rest)
    simp only [List.append_assoc, List.cons_append, List.nil_append] at htry ⊢
    simp [PayloadScan.step, PayloadScan.codeStep, outside, htry]
  have hraw := fun before => ((readsRaw candidates misScoped depth).marked_raw hcontent
    (hfirst (text ++ lead) before)).reads
  have hall := hfront.append hraw
  simpa [outside] using hall

end

section

variable (candidates misScoped : List (List Char))

theorem reads_token {t : Token} (hspelled : t.Spelled) {stack stack' : List Char} (hnest : t.inItem stack = some stack')
    {before rest : List Char} (hlegible : t.Legible before rest) (text : List Char) :
    Reads PayloadScan.step (outside candidates misScoped stack.length text) before t.text rest
      (outside candidates misScoped stack'.length (text ++ t.text)) := by
  obtain ⟨happ, hlegible⟩ := hlegible
  cases t with
  | code ch =>
    have hcomma : stack' = stack ∧ ¬(ch = ',' ∧ stack.length = 0) := by
      cases stack with
      | nil =>
        rw [Token.inItem] at hnest
        split at hnest
        · cases hnest
        · rename_i hcomma
          cases hnest
          exact ⟨rfl, fun h => hcomma h.1⟩
      | cons closer stack =>
        cases hnest
        exact ⟨rfl, fun h => by simp at h⟩
    obtain ⟨rfl, hcomma⟩ := hcomma
    exact .single (step_code hspelled hlegible.1 hlegible.2 hcomma text before)
  | separator =>
    cases hnest
    have henter : shouldEnterCharLiteral before rest = false := happ
    refine .single ?_
    simp [PayloadScan.step, PayloadScan.codeStep, outside, henter, isOpening, isClosing, tryStartRawString_none]
  | opening ch =>
    cases hnest
    have hopening : isOpening ch = true := hspelled
    have hmarks : ch ≠ '/' ∧ ch ≠ '"' ∧ ch ≠ '\'' ∧ ch ≠ 'R' := by
      refine ⟨?_, ?_, ?_, ?_⟩
      all_goals
        rintro rfl
        cases hspelled
    refine .single ?_
    simp [PayloadScan.step, PayloadScan.codeStep, outside, hopening, hmarks, tryStartRawString_none]
  | closing ch =>
    have hclosing : isClosing ch = true := hspelled
    have hmarks : ch ≠ '/' ∧ ch ≠ '"' ∧ ch ≠ '\'' ∧ ch ≠ 'R' ∧ isOpening ch = false := by
      simp only [Token.Spelled, isClosing, Bool.or_eq_true, beq_iff_eq] at hspelled
      obtain (rfl | rfl) | rfl := hspelled
      all_goals decide
    cases stack with
    | nil => cases hnest
    | cons closer stack =>
      have hclose : (if ch = closer then some stack else none) = some stack' := hnest
      split at hclose
      · cases hclose
        refine .single ?_
        simp [PayloadScan.step, PayloadScan.codeStep, outside, hclosing, hmarks, tryStartRawString_none]
      · cases hclose
  | string body =>
    cases hnest
    have hopen : PayloadScan.step (outside candidates misScoped stack.length text) before '"' (body ++ ['"'] ++ rest) =
        .ok { outside candidates misScoped stack.length (text ++ ['"']) with quoted := some ('"', false) } := by
      simp [PayloadScan.step, PayloadScan.codeStep, outside, tryStartRawString_none]
    have hbody := (marksLiterals candidates misScoped stack.length '"').marked (by decide) hspelled (text ++ ['"'])
      ('"' :: before) rest
    simpa using Reads.step hopen hbody.reads
  | character body =>
    cases hnest
    have henter : shouldEnterCharLiteral before (body ++ '\'' :: rest) = true := happ
    have hopen : PayloadScan.step (outside candidates misScoped stack.length text) before '\'' (body ++ ['\''] ++ rest) =
        .ok { outside candidates misScoped stack.length (text ++ ['\'']) with quoted := some ('\'', false) } := by
      simp [PayloadScan.step, PayloadScan.codeStep, outside, tryStartRawString_none, henter]
    have hbody := (marksLiterals candidates misScoped stack.length '\'').marked (by decide) hspelled (text ++ ['\''])
      ('\'' :: before) rest
    simpa using Reads.step hopen hbody.reads
  | raw start delimiter content =>
    cases hnest
    exact reads_raw hspelled hlegible text before rest

def inComment (candidates misScoped : List (List Char)) (depth : Nat) (kind : Comment) (text : List Char) : PayloadScan :=
  { outside candidates misScoped depth text with comment := some kind }

variable (depth : Nat)

theorem reads_line {content : List Char} (h : ∀ ch ∈ content, isNewline ch = false) (text before rest : List Char) :
    Reads PayloadScan.step (inComment candidates misScoped depth .line text) before content rest
      (inComment candidates misScoped depth .line (text ++ content)) := by
  refine reads_plain (fun done ch left hdone text before => ?_) text before
  have hch : ch ≠ '\n' ∧ ch ≠ '\r' := by
    have hnewline := h ch (by simp [hdone])
    simpa [isNewline] using hnewline
  simp [PayloadScan.step, inComment, outside, hch]

theorem reads_block {content : List Char} (h : blockContent content = true) (text before rest : List Char) :
    Reads PayloadScan.step (inComment candidates misScoped depth .block text) before content (['*', '/'] ++ rest)
      (inComment candidates misScoped depth .block (text ++ content)) := by
  induction content generalizing text before with
  | nil => simpa using Reads.done
  | cons ch content ih =>
    simp only [blockContent, Bool.and_eq_true, Bool.not_eq_true', Bool.and_eq_false_iff, beq_eq_false_iff_ne] at h
    obtain ⟨hend, hcontent⟩ := h
    have hstays : ¬(ch = '*' ∧ (content ++ (['*', '/'] ++ rest)).head? = some '/') := by
      rintro ⟨hch, hhead⟩
      cases content with
      | nil => cases hhead
      | cons next content => exact hend.elim (fun h => h hch) fun h => h hhead
    have hstep : PayloadScan.step (inComment candidates misScoped depth .block text) before ch
        (content ++ (['*', '/'] ++ rest)) = .ok (inComment candidates misScoped depth .block (text ++ [ch])) := by
      simp only [PayloadScan.step, inComment, outside, Nat.lt_irrefl, ↓reduceIte, if_neg hstays]
    have hmore := ih hcontent (text ++ [ch]) (ch :: before)
    rw [List.append_assoc text] at hmore
    exact .step hstep hmore

theorem reads_commentStart {kind : Comment} {ch : Char} (h : ch = match kind with | .line => '/' | .block => '*')
    (text before rest : List Char) :
    Reads PayloadScan.step (outside candidates misScoped depth text) before ['/', ch] rest
      (inComment candidates misScoped depth kind (text ++ ['/', ch])) := by
  have hfirst : PayloadScan.step (outside candidates misScoped depth text) before '/' ([ch] ++ rest) =
      .ok { inComment candidates misScoped depth kind (text ++ ['/']) with jump := 1 } := by
    cases kind
    all_goals
      subst h
      rfl
  refine .step hfirst (.single ?_)
  simp [PayloadScan.step, inComment, outside]

theorem reads_comment {c : CommentText} (hspelled : c.Spelled) (text before rest : List Char) :
    Reads PayloadScan.step (outside candidates misScoped depth text) before c.text rest
      (outside candidates misScoped depth (text ++ c.text)) := by
  cases c with
  | line content newline =>
    obtain ⟨hcontent, hnewline⟩ := hspelled
    have hend : ∀ text before, PayloadScan.step (inComment candidates misScoped depth .line text) before newline rest =
        .ok (outside candidates misScoped depth (text ++ [newline])) := by
      intro text before
      have heither : newline = '\n' ∨ newline = '\r' := by simpa [isNewline] using hnewline
      simp [PayloadScan.step, inComment, outside, heither]
    have hstart := @reads_commentStart candidates misScoped depth .line '/' rfl text before (content ++ [newline] ++ rest)
    have hall := hstart.append fun before =>
      (reads_line candidates misScoped depth hcontent (text ++ ['/', '/']) before ([newline] ++ rest)).append fun before =>
        .single (hend (text ++ ['/', '/'] ++ content) before)
    simpa [CommentText.text] using hall
  | block content =>
    have hstar : ∀ text before, PayloadScan.step (inComment candidates misScoped depth .block text) before '*'
        (['/'] ++ rest) = .ok { outside candidates misScoped depth (text ++ ['*']) with jump := 1 } :=
      fun text before => rfl
    have hslash : ∀ text before, PayloadScan.step { outside candidates misScoped depth text with jump := 1 } before '/'
        rest = .ok (outside candidates misScoped depth (text ++ ['/'])) := fun text before => rfl
    have hstart := @reads_commentStart candidates misScoped depth .block '*' rfl text before (content ++ ['*', '/'] ++ rest)
    have hall := hstart.append fun before =>
      (reads_block candidates misScoped depth hspelled (text ++ ['/', '*']) before rest).append fun before =>
        .step (hstar (text ++ ['/', '*'] ++ content) before) (.single (hslash _ _))
    simpa [CommentText.text] using hall

theorem reads_pieces {ps : List Piece} (hspelled : ∀ p ∈ ps, p.Spelled) {stack stack' : List Char}
    (hnest : inItemAfter stack (tokensOf ps) = some stack') {before rest : List Char}
    (hlegible : AllLegible rest before ps) (text : List Char) :
    Reads PayloadScan.step (outside candidates misScoped stack.length text) before (piecesText ps) rest
      (outside candidates misScoped stack'.length (text ++ piecesText ps)) := by
  induction ps generalizing stack before text with
  | nil =>
    cases hnest
    simpa using Reads.done
  | cons p ps ih =>
    obtain ⟨hp, hps⟩ := List.forall_mem_cons.mp hspelled
    cases p with
    | token t =>
      obtain ⟨next, hnext, hrest⟩ := Option.bind_eq_some_iff.mp hnest
      have htoken := reads_token candidates misScoped hp hnext hlegible.1 text
      have hmore := ih hps hrest hlegible.2 (text ++ t.text)
      rw [List.append_assoc] at hmore
      exact htoken.append_known hmore
    | comment c =>
      have hcomment := reads_comment candidates misScoped stack.length hp text before (piecesText ps ++ rest)
      have hmore := ih hps hnest hlegible.2 (text ++ c.text)
      rw [List.append_assoc] at hmore
      exact hcomment.append_known hmore

end

end PayloadScan

-- ---------------------------------------------------------------------------
-- White space at the ends
-- ---------------------------------------------------------------------------

theorem trimView_eq (text : List Char) : trimView text = trim isSpace text := rfl

theorem isGentestScopedAttributeToken_trimView (text : List Char) :
    isGentestScopedAttributeToken (trimView text) = isGentestScopedAttributeToken text := by
  rw [isGentestScopedAttributeToken, isGentestScopedAttributeToken, trimView_eq, trimView_eq, trim_trim]

theorem Token.text_last {t : Token} (hspelled : t.Spelled) (hspace : ∀ ch, t = .code ch → isSpace ch = false) :
    ∃ front last, t.text = front ++ [last] ∧ isSpace last = false := by
  cases t with
  | code ch => exact ⟨[], ch, rfl, hspace ch rfl⟩
  | separator => exact ⟨[], '\'', rfl, rfl⟩
  | opening ch =>
    refine ⟨[], ch, rfl, ?_⟩
    simp only [Token.Spelled, isOpening, Bool.or_eq_true, beq_iff_eq] at hspelled
    obtain (rfl | rfl) | rfl := hspelled
    all_goals rfl
  | closing ch =>
    refine ⟨[], ch, rfl, ?_⟩
    simp only [Token.Spelled, isClosing, Bool.or_eq_true, beq_iff_eq] at hspelled
    obtain (rfl | rfl) | rfl := hspelled
    all_goals rfl
  | string body => exact ⟨'"' :: body, '"', rfl, rfl⟩
  | character body => exact ⟨'\'' :: body, '\'', rfl, rfl⟩
  | raw start delimiter content => exact ⟨_, '"', rfl, rfl⟩

/-- What is left of pieces whose last white space is dropped: pieces in front, and
perhaps a line comment without its end. -/
structure Trimmed (ps front : List Piece) (tail : List Char) : Prop where
  text : (piecesText ps).rdropWhile isSpace = piecesText front ++ tail
  isFront : front <+: ps
  nest : ∀ stack, inItemAfter stack (tokensOf front) = inItemAfter stack (tokensOf ps)
  tail : tail = [] ∨ ∃ content, tail = '/' :: '/' :: content ∧ ∀ ch ∈ content, isNewline ch = false

theorem tokensOf_append (ps qs : List Piece) : tokensOf (ps ++ qs) = tokensOf ps ++ tokensOf qs := by
  induction ps with
  | nil => rfl
  | cons p ps ih =>
    cases p with
    | token t => exact congrArg (t :: ·) ih
    | comment c => exact ih

theorem inItemAfter_append (stack : List Char) (ts us : List Token) :
    inItemAfter stack (ts ++ us) = (inItemAfter stack ts).bind (inItemAfter · us) := by
  induction ts generalizing stack with
  | nil => rfl
  | cons t ts ih =>
    rw [List.cons_append, inItemAfter, inItemAfter, Option.bind_assoc]
    exact congrArg _ (funext fun next => ih next)

theorem inItemAfter_space {ch : Char} (h : isSpace ch = true) (stack : List Char) :
    inItemAfter stack [.code ch] = some stack := by
  have hcomma : ch ≠ ',' := by
    rintro rfl
    cases h
  cases stack with
  | nil => simp [inItemAfter, Token.inItem, hcomma]
  | cons closer stack => rfl

theorem exists_trimmed {ps : List Piece} (hspelled : ∀ p ∈ ps, p.Spelled) : ∃ front tail, Trimmed ps front tail := by
  induction ps using List.reverseRecOn with
  | nil => exact ⟨[], [], rfl, List.prefix_rfl, fun _ => rfl, .inl rfl⟩
  | append_singleton ps p ih =>
    obtain ⟨hps, hp⟩ := List.forall_mem_append.mp hspelled
    have hp := hp p List.mem_cons_self
    have hkept : ∀ front last, p.text = front ++ [last] → isSpace last = false →
        Trimmed (ps ++ [p]) (ps ++ [p]) [] := by
      intro front last htext hlast
      refine ⟨?_, List.prefix_rfl, fun _ => rfl, .inl rfl⟩
      have hsplit : piecesText (ps ++ [p]) = (piecesText ps ++ front) ++ last :: [] := by simp [htext]
      rw [hsplit, rdropWhile_append_cons hlast]
      simp
    cases p with
    | token t =>
      by_cases hspace : ∃ ch, t = .code ch ∧ isSpace ch = true
      · obtain ⟨ch, rfl, hch⟩ := hspace
        obtain ⟨front, tail, htext, hstarts, hnest, htail⟩ := ih hps
        refine ⟨front, tail, ?_, hstarts.trans (List.prefix_append ps _), fun stack => ?_, htail⟩
        · rw [← htext, piecesText_append]
          exact rdropWhile_all _ (by simpa [Piece.text] using hch)
        · rw [hnest, tokensOf_append, inItemAfter_append]
          cases inItemAfter stack (tokensOf ps) with
          | none => rfl
          | some next => exact (inItemAfter_space hch next).symm
      · have hnone : ∀ ch, t = .code ch → isSpace ch = false := by
          intro ch hch
          rw [← Bool.not_eq_true]
          exact fun h => hspace ⟨ch, hch, h⟩
        obtain ⟨front, last, htext, hlast⟩ := Token.text_last hp hnone
        exact ⟨_, _, hkept front last htext hlast⟩
    | comment c =>
      cases c with
      | block content => exact ⟨_, _, hkept ('/' :: '*' :: content ++ ['*']) '/' (by simp [Piece.text, CommentText.text]) rfl⟩
      | line content newline =>
        refine ⟨ps, '/' :: '/' :: content.rdropWhile isSpace, ?_, List.prefix_append ps _, fun stack => ?_, .inr ⟨_, rfl, ?_⟩⟩
        · have hnewline : isSpace newline = true := by
            have heither : newline = '\n' ∨ newline = '\r' := by simpa [isNewline] using hp.2
            obtain rfl | rfl := heither
            all_goals rfl
          have hsplit : piecesText (ps ++ [.comment (.line content newline)]) =
              (piecesText ps ++ '/' :: ('/' :: content)) ++ [newline] := by simp [Piece.text, CommentText.text]
          have hslash : ('/' :: content).rdropWhile isSpace = '/' :: content.rdropWhile isSpace :=
            rdropWhile_append_cons rfl [] content
          rw [hsplit, rdropWhile_all _ (by simpa using hnewline), rdropWhile_append_cons rfl, hslash]
        · rw [tokensOf_append]
          exact congrArg _ (List.append_nil _).symm
        · exact fun ch hch => hp.1 ch ((List.rdropWhile_prefix isSpace content).subset hch)

-- ---------------------------------------------------------------------------
-- Legible pieces in a shorter text
-- ---------------------------------------------------------------------------

theorem dropWhile_paren {text : List Char} (hmem : '(' ∈ text) : ∃ more, text.dropWhile (· != '(') = '(' :: more := by
  cases hdrop : text.dropWhile (· != '(') with
  | nil =>
    have hnone := List.dropWhile_eq_nil_iff.mp hdrop '(' hmem
    simp at hnone
  | cons ch more =>
    have hne : text.dropWhile (· != '(') ≠ [] := by simp [hdrop]
    have hhead := List.head_dropWhile_not (· != '(') hne
    simp only [hdrop, List.head_cons, bne_eq_false_iff_eq] at hhead
    exact ⟨more, by rw [hhead]⟩

theorem rawDelimiter_shorten {allowed : Char → Bool} {text behind : List Char}
    (h : rawDelimiter allowed (text ++ behind) = none) : rawDelimiter allowed text = none := by
  by_contra hsome
  obtain ⟨delimiter, hsome⟩ := Option.ne_none_iff_exists'.mp hsome
  simp only [rawDelimiter, Bool.and_eq_true, List.all_eq_true, List.contains_iff_mem, Option.ite_none_right_eq_some,
    Option.some.injEq] at hsome
  obtain ⟨⟨hall, hmem⟩, -⟩ := hsome
  have hopen : ∀ ch ∈ text.takeWhile (· != '('), ch ≠ '(' := by
    intro ch hch
    simpa using List.mem_takeWhile_imp hch
  obtain ⟨more, hmore⟩ := dropWhile_paren hmem
  have htext : text ++ behind = text.takeWhile (· != '(') ++ '(' :: (more ++ behind) := by
    rw [← List.cons_append, ← hmore, ← List.append_assoc, List.takeWhile_append_dropWhile]
  rw [htext, rawDelimiter_append fun ch hch => ⟨hall ch hch, hopen ch hch⟩] at h
  cases h

theorem tryStartRawString_shorten {ch : Char} {rest behind : List Char}
    (h : tryStartRawString (ch :: (rest ++ behind)) = none) : tryStartRawString (ch :: rest) = none := by
  by_cases hstart : ch = 'R' ∧ rest.head? = some '"'
  · obtain ⟨rfl, hhead⟩ := hstart
    cases rest with
    | nil => cases hhead
    | cons quote rest =>
      cases hhead
      exact rawDelimiter_shorten h
  · exact tryStartRawString_none fun hch hhead => hstart ⟨hch, hhead⟩

/-- What is legible in a text is so when its end is missing. -/
theorem Piece.Legible.shorten {p : Piece} {before rest behind : List Char} (h : p.Legible before (rest ++ behind)) :
    p.Legible before rest := by
  cases p with
  | comment c => trivial
  | token t =>
    obtain ⟨happ, hlegible⟩ := h
    cases t with
    | code ch =>
      refine ⟨trivial, tryStartRawString_shorten hlegible.1, fun hslash => hlegible.2 ⟨hslash.1, ?_⟩⟩
      cases rest with
      | nil => exact absurd hslash.2 (by simp)
      | cons next rest => exact hslash.2
    | separator =>
      refine ⟨?_, trivial⟩
      have henter : shouldEnterCharLiteral before (rest ++ behind) = false := happ
      cases rest with
      | nil =>
        have hlead : isCharLiteralPrefix before = false := by
          simp only [shouldEnterCharLiteral, Bool.or_eq_false_iff] at henter
          exact henter.1
        simp [Token.ReadsApostrophe, shouldEnterCharLiteral, hlead]
      | cons next rest => exact (shouldEnterCharLiteral_congr rfl before).trans henter
    | character body =>
      refine ⟨?_, trivial⟩
      have henter : shouldEnterCharLiteral before (body ++ '\'' :: (rest ++ behind)) = true := happ
      refine (shouldEnterCharLiteral_congr ?_ before).trans henter
      cases body with
      | nil => rfl
      | cons ch body => rfl
    | _ => exact ⟨happ, hlegible⟩

theorem Piece.Legible.shortenFront {p : Piece} {before rest spaces : List Char}
    (hspaces : ∀ ch ∈ spaces, isSpace ch = true) (h : p.Legible (before ++ spaces) rest) : p.Legible before rest := by
  have hsame : ∀ rest, shouldEnterCharLiteral (before ++ spaces) rest = shouldEnterCharLiteral before rest := by
    intro rest
    cases spaces with
    | nil => rw [List.append_nil]
    | cons ch spaces =>
      refine shouldEnterCharLiteral_front ?_ before spaces rest
      have hspace := hspaces ch List.mem_cons_self
      rw [← Bool.not_eq_true]
      intro hword
      have hidentifier : isIdentifierChar ch = true := by
        simp only [isWordChar, Bool.or_eq_true, isIdentifierChar] at hword ⊢
        exact .inl hword
      rw [isSpace_of_isIdentifierChar hidentifier] at hspace
      cases hspace
  cases p with
  | comment c => trivial
  | token t =>
    obtain ⟨happ, hlegible⟩ := h
    cases t with
    | separator => exact ⟨(hsame _).symm.trans happ, trivial⟩
    | character body => exact ⟨(hsame _).symm.trans happ, trivial⟩
    | code ch => exact ⟨trivial, hlegible⟩
    | _ => exact ⟨happ, hlegible⟩

theorem AllLegible.shorten {ps : List Piece} {before rest behind : List Char} (h : AllLegible (rest ++ behind) before ps) :
    AllLegible rest before ps := by
  induction ps generalizing before with
  | nil => trivial
  | cons p ps ih =>
    obtain ⟨hp, hps⟩ := h
    rw [← List.append_assoc] at hp
    exact ⟨hp.shorten, ih hps⟩

theorem AllLegible.shortenFront {ps : List Piece} {before rest spaces : List Char}
    (hspaces : ∀ ch ∈ spaces, isSpace ch = true) (h : AllLegible rest (before ++ spaces) ps) :
    AllLegible rest before ps := by
  induction ps generalizing before with
  | nil => trivial
  | cons p ps ih =>
    obtain ⟨hp, hps⟩ := h
    rw [← List.append_assoc] at hps
    exact ⟨hp.shortenFront hspaces, ih hps⟩

theorem allLegible_append {ps qs : List Piece} {before rest : List Char} :
    AllLegible rest before (ps ++ qs) ↔ AllLegible (piecesText qs ++ rest) before ps ∧
      AllLegible rest ((piecesText ps).reverse ++ before) qs := by
  induction ps generalizing before with
  | nil => simp [AllLegible]
  | cons p ps ih => simp [AllLegible, ih, and_assoc]

-- ---------------------------------------------------------------------------
-- The candidates of a list
-- ---------------------------------------------------------------------------

/-- What an item adds to the payload. -/
def candidatesOf (ps : List Piece) : List (List Char) :=
  if isGentestScopedAttributeToken (piecesText ps) then [trimView (piecesText ps)] else []

def misScopedOf (ps : List Piece) : List (List Char) :=
  if !isGentestScopedAttributeToken (piecesText ps) && isKnownGentestUnscopedToken (piecesText ps) then
    [trimView (piecesText ps)]
  else []

theorem isKnownGentestUnscopedToken_trimView (text : List Char) :
    isKnownGentestUnscopedToken (trimView text) = isKnownGentestUnscopedToken text := by
  unfold isKnownGentestUnscopedToken
  rw [trimView_eq, trimView_eq, trim_trim]

theorem PayloadScan.collect_outside (st : PayloadScan) {ps : List Piece} (htoken : trimView st.token = trimView (piecesText ps)) :
    st.collectIfGentestRelated =
      { st with
        token := [], candidates := st.candidates ++ candidatesOf ps
        misScopedGentest := st.misScopedGentest ++ misScopedOf ps } := by
  have hscoped : isGentestScopedAttributeToken (trimView (piecesText ps)) =
      isGentestScopedAttributeToken (piecesText ps) := isGentestScopedAttributeToken_trimView _
  have hknown : isKnownGentestUnscopedToken (trimView (piecesText ps)) =
      isKnownGentestUnscopedToken (piecesText ps) := isKnownGentestUnscopedToken_trimView _
  unfold PayloadScan.collectIfGentestRelated candidatesOf misScopedOf
  rw [htoken]
  dsimp only
  split
  · rename_i hblank
    have hnone : isGentestScopedAttributeToken (piecesText ps) = false := by
      rw [← hscoped, hblank]
      rfl
    have hunknown : isKnownGentestUnscopedToken (piecesText ps) = false := by
      rw [← hknown, hblank]
      rfl
    simp [hnone, hunknown]
  · rw [hscoped, hknown]
    cases isGentestScopedAttributeToken (piecesText ps) with
    | true => simp
    | false => cases isKnownGentestUnscopedToken (piecesText ps) <;> simp

/-- Pieces of one item. -/
structure IsItem (ps : List Piece) : Prop where
  spelled : ∀ p ∈ ps, p.Spelled
  nest : inItemAfter [] (tokensOf ps) = some []

/-- The last item, whose white space at the end is not there. -/
theorem PayloadScan.reads_last {ps : List Piece} (hps : IsItem ps) {before : List Char} (hlegible : AllLegible [] before ps)
    (candidates misScoped : List (List Char)) :
    ∃ st : PayloadScan, Reads PayloadScan.step (outside candidates misScoped 0 []) before
        ((piecesText ps).rdropWhile isSpace) [] st ∧
      st.token = (piecesText ps).rdropWhile isSpace ∧ st.candidates = candidates ∧ st.misScopedGentest = misScoped := by
  obtain ⟨front, tail, htext, ⟨dropped, rfl⟩, hnest, htail⟩ := exists_trimmed hps.spelled
  have hspelled : ∀ p ∈ front, p.Spelled := fun p hp => hps.spelled p (List.mem_append_left dropped hp)
  have hfrontNest : inItemAfter [] (tokensOf front) = some [] := (hnest []).trans hps.nest
  have hlegible : AllLegible tail before front := by
    obtain ⟨spaces, hsplit, -⟩ := exists_rdropWhile isSpace (piecesText (front ++ dropped))
    rw [htext, piecesText_append, List.append_assoc] at hsplit
    have hdropped := List.append_cancel_left hsplit
    have hfront := (allLegible_append.mp hlegible).1
    rw [List.append_nil, hdropped] at hfront
    exact hfront.shorten
  have hreads := reads_pieces candidates misScoped hspelled hfrontNest hlegible []
  rw [htext]
  obtain rfl | ⟨content, rfl, hcontent⟩ := htail
  · refine ⟨outside candidates misScoped 0 (piecesText front), ?_, by simp [outside], rfl, rfl⟩
    simpa using hreads
  · refine ⟨inComment candidates misScoped 0 .line (piecesText front ++ ['/', '/'] ++ content), ?_,
      by simp [inComment, outside], rfl, rfl⟩
    have hstart := fun before => @reads_commentStart candidates misScoped 0 .line '/' rfl (piecesText front) before
      (content ++ [])
    have hline := fun before => reads_line candidates misScoped 0 hcontent (piecesText front ++ ['/', '/']) before []
    have hcomment := fun before => (hstart before).append hline
    rw [List.nil_append] at hreads
    have hfront : Reads PayloadScan.step (outside candidates misScoped 0 []) before (piecesText front)
        ('/' :: '/' :: content ++ []) (outside candidates misScoped 0 (piecesText front)) := by simpa using hreads
    exact hfront.append hcomment

theorem PayloadScan.reads_items {items : List (List Piece)} (hitems : ∀ ps ∈ items, IsItem ps) {before : List Char}
    (hlegible : AllLegible [] before (listPieces items)) (candidates misScoped : List (List Char)) :
    ∃ st, Reads PayloadScan.step (outside candidates misScoped 0 []) before
        ((piecesText (listPieces items)).rdropWhile isSpace) [] st ∧
      st.collectIfGentestRelated.candidates = candidates ++ items.flatMap candidatesOf ∧
        st.collectIfGentestRelated.misScopedGentest = misScoped ++ items.flatMap misScopedOf := by
  induction items generalizing before candidates misScoped with
  | nil =>
    refine ⟨_, .done, ?_⟩
    simp [PayloadScan.collectIfGentestRelated, outside, trimView]
  | cons ps items ih =>
    obtain ⟨hps, hitems⟩ := List.forall_mem_cons.mp hitems
    cases items with
    | nil =>
      rw [listPieces_single] at hlegible ⊢
      obtain ⟨st, hreads, htoken, hcandidates, hmisScoped⟩ := reads_last hps hlegible candidates misScoped
      refine ⟨st, hreads, ?_⟩
      have htrim : trimView st.token = trimView (piecesText ps) := by
        rw [htoken]
        exact trim_rdropWhile _
      rw [st.collect_outside htrim, hcandidates, hmisScoped]
      simp
    | cons next items =>
      rw [listPieces_cons] at hlegible ⊢
      obtain ⟨hfront, -, hmore⟩ := allLegible_append.mp hlegible
      obtain ⟨spaces, hbehind, -⟩ := exists_rdropWhile isSpace (piecesText (listPieces (next :: items)))
      have hcommaSpace : isSpace ',' = false := by decide
      have hfront : AllLegible (',' :: (piecesText (listPieces (next :: items))).rdropWhile isSpace) before ps := by
        rw [List.append_nil, piecesText_cons, hbehind] at hfront
        rw [← List.append_assoc] at hfront
        exact hfront.shorten
      have htext : (piecesText (ps ++ Piece.token (.code ',') :: listPieces (next :: items))).rdropWhile isSpace =
          piecesText ps ++ ',' :: (piecesText (listPieces (next :: items))).rdropWhile isSpace := by
        rw [piecesText_append]
        exact rdropWhile_append_cons hcommaSpace _ _
      have hreads := reads_pieces candidates misScoped hps.spelled hps.nest hfront []
      have hcollect := @collect_outside (outside candidates misScoped 0 (piecesText ps)) ps rfl
      have hcomma : PayloadScan.step (outside candidates misScoped 0 (piecesText ps)) ((piecesText ps).reverse ++ before) ','
          ((piecesText (listPieces (next :: items))).rdropWhile isSpace ++ []) =
          .ok (outside (candidates ++ candidatesOf ps) (misScoped ++ misScopedOf ps) 0 []) := by
        have hstep : PayloadScan.step (outside candidates misScoped 0 (piecesText ps)) ((piecesText ps).reverse ++ before)
            ',' ((piecesText (listPieces (next :: items))).rdropWhile isSpace ++ []) =
            .ok (outside candidates misScoped 0 (piecesText ps)).collectIfGentestRelated := by
          simp [PayloadScan.step, PayloadScan.codeStep, outside, isOpening, isClosing, tryStartRawString_none]
        rw [hstep, hcollect]
        rfl
      obtain ⟨st, hrest, hcandidates, hmisScoped⟩ := ih hitems hmore (candidates ++ candidatesOf ps)
        (misScoped ++ misScopedOf ps)
      refine ⟨st, ?_, by rw [hcandidates, List.append_assoc, ← List.flatMap_cons],
        by rw [hmisScoped, List.append_assoc, ← List.flatMap_cons]⟩
      rw [htext]
      have hitem : Reads PayloadScan.step (outside candidates misScoped 0 []) before (piecesText ps)
          (',' :: (piecesText (listPieces (next :: items))).rdropWhile isSpace ++ [])
          (outside candidates misScoped 0 (piecesText ps)) := by simpa using hreads
      exact hitem.append_known (.step hcomma hrest)

end Gentest.Codegen
