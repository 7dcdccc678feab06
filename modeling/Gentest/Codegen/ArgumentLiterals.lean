import Gentest.Codegen.ArgumentTokens

/-!
# When arguments are read as written

The comma splitter leaves each token where the search for the parenthesis does if
raw strings hold no quote of their own. What it returns then depends on the angle
brackets it has open at the commas and on blank arguments.
-/

namespace Gentest.Codegen

open Scanner

-- ---------------------------------------------------------------------------
-- The splitter on one token
-- ---------------------------------------------------------------------------

def SplitScan.outside (parts : List (List Char)) (current : List Char) (depth angle : Nat) : SplitScan :=
  { parts := parts, current := current, depth := depth, angleDepth := angle }

theorem SplitScan.marksLiterals (parts : List (List Char)) (depth angle : Nat) (quote : Char) :
    MarksLiterals SplitScan.step SplitScan.insideLiteral '\\' quote
      (fun text => SplitScan.outside parts text depth angle)
      (fun text escape => { SplitScan.outside parts text depth angle with quoted := some (quote, escape) }) where
  steps text before rest ch escape := by
    cases hstep : literalStep '\\' quote escape ch
    all_goals simp [SplitScan.step, nextQuoted, hstep, SplitScan.outside]
  outside text := rfl
  within text escape := rfl

/-- The letters in front of the quote of a raw string mean nothing to the splitter. -/
theorem SplitScan.marked_lead {start : List Char} (h : start ∈ rawStringPrefixes) (parts : List (List Char))
    (depth angle : Nat) (text before rest : List Char) :
    Marked SplitScan.step SplitScan.insideLiteral (SplitScan.outside parts text depth angle) before start.dropLast rest
      (List.replicate start.dropLast.length false)
      (SplitScan.outside parts (text ++ start.dropLast) depth angle) := by
  have hletter : ∀ ch ∈ ['R', 'u', 'U', 'L', '8'], ∀ text before rest,
      SplitScan.step (SplitScan.outside parts text depth angle) before ch rest =
        .ok (SplitScan.outside parts (text ++ [ch]) depth angle) := by
    intro ch hch text before rest
    simp only [List.mem_cons, List.not_mem_nil, or_false] at hch
    obtain rfl | rfl | rfl | rfl | rfl := hch
    all_goals rfl
  have hletters : ∀ start ∈ rawStringPrefixes, ∀ ch ∈ start.dropLast, ch ∈ ['R', 'u', 'U', 'L', '8'] := by decide
  have hstart := hletters start h
  generalize start.dropLast = front at hstart
  induction front generalizing text before with
  | nil => simpa using Marked.done
  | cons ch front ih =>
    obtain ⟨hch, hfront⟩ := List.forall_mem_cons.mp hstart
    have hmore := ih (text ++ [ch]) (ch :: before) hfront
    rw [List.append_assoc] at hmore
    exact .step (hletter ch hch text before _) hmore

theorem dropLast_rawStringPrefix {start : List Char} (h : start ∈ rawStringPrefixes) : start.dropLast ++ ['"'] = start := by
  have hall : ∀ start ∈ rawStringPrefixes, start.dropLast ++ ['"'] = start := by decide
  exact hall start h

/-- The text of a raw string after its quote, up to the closing one. -/
def rawBody (delimiter content : List Char) : List Char := delimiter ++ ('(' :: content) ++ (')' :: delimiter)

theorem Token.text_raw {start : List Char} (h : start ∈ rawStringPrefixes) (delimiter content : List Char) :
    (Token.raw start delimiter content).text = start.dropLast ++ ('"' :: (rawBody delimiter content ++ ['"'])) := by
  conv_lhs => rw [Token.text, ← dropLast_rawStringPrefix h]
  simp [rawBody]

theorem Token.splitterPlaces_raw {start : List Char} (h : start ∈ rawStringPrefixes) (delimiter content : List Char) :
    (Token.raw start delimiter content).splitterPlaces =
      List.replicate start.dropLast.length false ++
        (true :: (List.replicate (rawBody delimiter content).length true ++ [false])) := by
  have hlength : (Token.raw start delimiter content).text.length - 1 - start.dropLast.length =
      (rawBody delimiter content).length + 1 := by
    rw [Token.text_raw h]
    simp
  rw [Token.splitterPlaces, Token.lead, hlength, List.replicate_succ]
  simp

theorem SplitScan.opens_string (parts : List (List Char)) (depth angle : Nat) (text before rest : List Char) :
    SplitScan.step (SplitScan.outside parts text depth angle) before '"' rest =
      .ok { SplitScan.outside parts (text ++ ['"']) depth angle with quoted := some ('"', false) } := rfl

theorem SplitScan.marked_token {t : Token} (hspelled : t.Spelled) {stack stack' : List Char}
    (hbrackets : t.brackets stack = some stack') {before rest : List Char} (happ : t.ReadsApostrophe before rest)
    (hescaped : t.Escaped) (parts : List (List Char)) (current : List Char) (angle : Nat) :
    Marked SplitScan.step SplitScan.insideLiteral (SplitScan.outside parts current stack.length angle) before
      t.text rest t.splitterPlaces
      (SplitScan.outside parts (current ++ t.text) stack'.length (t.angles before current rest angle)) := by
  cases t with
  | code ch =>
    obtain ⟨hstring, hchar, hopening, hclosing⟩ := hspelled
    have hcomma : stack' = stack ∧ ¬(ch = ',' ∧ stack.length = 0 ∧ angle = 0) := by
      cases stack with
      | nil =>
        rw [Token.brackets] at hbrackets
        split at hbrackets
        · cases hbrackets
        · rename_i htop
          cases hbrackets
          exact ⟨rfl, fun h => htop (.inl h.1)⟩
      | cons closer stack =>
        cases hbrackets
        exact ⟨rfl, fun h => by simp at h⟩
    obtain ⟨rfl, hcomma⟩ := hcomma
    refine .single ?_ rfl
    by_cases hless : ch = '<'
    · subst hless
      have hangle : SplitScan.shouldOpenAngle
          { parts := parts, current := current, depth := stack'.length, angleDepth := angle } before rest =
        Codegen.shouldOpenAngle current before rest := rfl
      by_cases hopens : Codegen.shouldOpenAngle current before rest = true
      · simp [SplitScan.step, SplitScan.outside, Token.angles, isOpening, isClosing, hangle, hopens]
      · simp [SplitScan.step, SplitScan.outside, Token.angles, isOpening, isClosing, hangle, hopens]
    · by_cases hgreater : ch = '>'
      · subst hgreater
        rfl
      · simp only [SplitScan.step, SplitScan.outside, Token.angles, Token.text, if_neg hstring, if_neg hchar, hopening,
          hclosing, if_neg hless, if_neg hgreater, Bool.false_eq_true, ↓reduceIte]
        exact congrArg Except.ok (if_neg hcomma)
  | separator =>
    cases hbrackets
    have henter : shouldEnterCharLiteral before rest = false := happ
    refine .single ?_ rfl
    simp [SplitScan.step, SplitScan.outside, Token.angles, henter]
  | opening ch =>
    cases hbrackets
    have hopening : isOpening ch = true := hspelled
    have hquotes : ch ≠ '"' ∧ ch ≠ '\'' := by
      refine ⟨?_, ?_⟩
      all_goals
        rintro rfl
        cases hspelled
    refine .single ?_ rfl
    simp [SplitScan.step, SplitScan.outside, Token.angles, hopening, hquotes]
  | closing ch =>
    have hclosing : isClosing ch = true := hspelled
    have hquotes : ch ≠ '"' ∧ ch ≠ '\'' ∧ isOpening ch = false := by
      simp only [Token.Spelled, isClosing, Bool.or_eq_true, beq_iff_eq] at hspelled
      obtain (rfl | rfl) | rfl := hspelled
      all_goals decide
    cases stack with
    | nil => cases hbrackets
    | cons closer stack =>
      have hnest := Token.nest_of_brackets hbrackets
      rw [Token.nest] at hnest
      split at hnest
      · cases hnest
        refine .single ?_ rfl
        simp [SplitScan.step, SplitScan.outside, Token.angles, hclosing, hquotes]
      · cases hnest
  | string body =>
    cases hbrackets
    have hbody := (SplitScan.marksLiterals parts stack.length angle '"').marked (by decide) hspelled (current ++ ['"'])
      ('"' :: before) rest
    have hall := Marked.step (SplitScan.opens_string parts stack.length angle current before (body ++ ['"'] ++ rest)) hbody
    simpa [Token.splitterPlaces, Token.lead, SplitScan.insideLiteral, List.replicate_succ, Token.angles] using hall
  | character body =>
    cases hbrackets
    have henter : shouldEnterCharLiteral before (body ++ '\'' :: rest) = true := happ
    have hopen : SplitScan.step (SplitScan.outside parts current stack.length angle) before '\'' (body ++ ['\''] ++ rest) =
        .ok { SplitScan.outside parts (current ++ ['\'']) stack.length angle with quoted := some ('\'', false) } := by
      simp [SplitScan.step, SplitScan.outside, henter]
    have hbody := (SplitScan.marksLiterals parts stack.length angle '\'').marked (by decide) hspelled (current ++ ['\''])
      ('\'' :: before) rest
    have hall := Marked.step hopen hbody
    simpa [Token.splitterPlaces, Token.lead, SplitScan.insideLiteral, List.replicate_succ, Token.angles] using hall
  | raw start delimiter content =>
    cases hbrackets
    have hlead := SplitScan.marked_lead hspelled.1 parts stack.length angle current before
      ('"' :: (rawBody delimiter content ++ ['"']) ++ rest)
    have hbody := (SplitScan.marksLiterals parts stack.length angle '"').marked (by decide) hescaped
      (current ++ start.dropLast ++ ['"']) ('"' :: (start.dropLast.reverse ++ before)) rest
    have hquoted := Marked.step (SplitScan.opens_string parts stack.length angle (current ++ start.dropLast)
      (start.dropLast.reverse ++ before) (rawBody delimiter content ++ ['"'] ++ rest)) hbody
    rw [Token.text_raw hspelled.1, Token.splitterPlaces_raw hspelled.1]
    simpa [rawBody, Token.angles, SplitScan.insideLiteral] using hlead.append hquoted

/-- A raw string with a quote of its own is marked otherwise. -/
theorem SplitScan.marks_token_ne {t : Token} (hspelled : t.Spelled) (hescaped : ¬t.Escaped) (parts : List (List Char))
    (depth angle : Nat) (current before rest : List Char) (tail : List Bool) :
    marks SplitScan.step SplitScan.insideLiteral (SplitScan.outside parts current depth angle) before (t.text ++ rest) ≠
      t.splitterPlaces ++ tail := by
  cases t with
  | raw start delimiter content =>
    intro hmarks
    rw [Token.text_raw hspelled.1, Token.splitterPlaces_raw hspelled.1, List.append_assoc, List.append_assoc,
      (SplitScan.marked_lead hspelled.1 ..).marks_append] at hmarks
    have hquoted := List.append_cancel_left hmarks
    rw [List.cons_append, marks, SplitScan.opens_string] at hquoted
    have hinside : marks SplitScan.step SplitScan.insideLiteral
        { SplitScan.outside parts (current ++ start.dropLast ++ ['"']) depth angle with quoted := some ('"', false) }
        ('"' :: (start.dropLast.reverse ++ before)) (rawBody delimiter content ++ '"' :: rest) =
        List.replicate (rawBody delimiter content).length true ++ false :: tail := by
      simpa using (List.cons.inj hquoted).2
    exact hescaped ((SplitScan.marksLiterals parts depth angle '"').staysInside hinside)
  | _ => exact absurd trivial hescaped

-- ---------------------------------------------------------------------------
-- The splitter on an argument
-- ---------------------------------------------------------------------------

/-- The apostrophes as the splitter sees them, from behind the parenthesis on. -/
def ReadsApostrophes (rest : List Char) : List Char → List Token → Prop
  | _, [] => True
  | before, t :: ts =>
    t.ReadsApostrophe before (tokensText ts ++ rest) ∧ ReadsApostrophes rest (t.text.reverse ++ before) ts

theorem readsApostrophes_append {rest : List Char} {ts us : List Token} {before : List Char} :
    ReadsApostrophes rest before (ts ++ us) ↔ ReadsApostrophes (tokensText us ++ rest) before ts ∧
      ReadsApostrophes rest ((tokensText ts).reverse ++ before) us := by
  induction ts generalizing before with
  | nil => simp [ReadsApostrophes]
  | cons t ts ih => simp [ReadsApostrophes, ih, and_assoc]

theorem SplitScan.marked_tokens {ts : List Token} (hspelled : ∀ t ∈ ts, t.Spelled) {stack stack' : List Char}
    (hbrackets : bracketsAfter stack ts = some stack') {before rest : List Char} (happ : ReadsApostrophes rest before ts)
    (hescaped : ∀ t ∈ ts, t.Escaped) (parts : List (List Char)) (current : List Char) (angle : Nat) :
    Marked SplitScan.step SplitScan.insideLiteral (SplitScan.outside parts current stack.length angle) before
      (tokensText ts) rest (ts.flatMap Token.splitterPlaces)
      (SplitScan.outside parts (current ++ tokensText ts) stack'.length (anglesAfter rest before current angle ts)) := by
  induction ts generalizing stack before current angle with
  | nil =>
    cases hbrackets
    simpa [anglesAfter] using Marked.done
  | cons t ts ih =>
    obtain ⟨ht, hts⟩ := List.forall_mem_cons.mp hspelled
    obtain ⟨hescape, hescapes⟩ := List.forall_mem_cons.mp hescaped
    obtain ⟨next, hnext, hbrackets⟩ := Option.bind_eq_some_iff.mp hbrackets
    have htoken := SplitScan.marked_token ht hnext happ.1 hescape parts current angle
    have hmore := ih hts hbrackets happ.2 hescapes (current ++ t.text)
      (t.angles before current (tokensText ts ++ rest) angle)
    simpa [anglesAfter] using htoken.append hmore

theorem SplitScan.escaped_of_marks {ts : List Token} (hspelled : ∀ t ∈ ts, t.Spelled) {stack stack' : List Char}
    (hbrackets : bracketsAfter stack ts = some stack') {before rest : List Char} (happ : ReadsApostrophes rest before ts)
    {parts : List (List Char)} {current : List Char} {angle : Nat} {tail : List Bool}
    (hmarks : marks SplitScan.step SplitScan.insideLiteral (SplitScan.outside parts current stack.length angle) before
      (tokensText ts ++ rest) = ts.flatMap Token.splitterPlaces ++ tail) : ∀ t ∈ ts, t.Escaped := by
  induction ts generalizing stack before current angle with
  | nil => exact fun _ ht => (nomatch ht)
  | cons t ts ih =>
    obtain ⟨ht, hts⟩ := List.forall_mem_cons.mp hspelled
    obtain ⟨next, hnext, hbrackets⟩ := Option.bind_eq_some_iff.mp hbrackets
    rw [tokensText_cons, List.append_assoc, List.flatMap_cons, List.append_assoc] at hmarks
    have hescape : t.Escaped := by
      by_contra hescape
      exact SplitScan.marks_token_ne ht hescape parts stack.length angle current before _ _ hmarks
    rw [(SplitScan.marked_token ht hnext happ.1 hescape parts current angle).marks_append] at hmarks
    have hmore := List.append_cancel_left hmarks
    exact List.forall_mem_cons.mpr ⟨hescape, ih hts hbrackets happ.2 hmore⟩

-- ---------------------------------------------------------------------------
-- The splitter on all arguments
-- ---------------------------------------------------------------------------

theorem SplitScan.step_comma (parts : List (List Char)) (current before rest : List Char) (angle : Nat) :
    SplitScan.step (SplitScan.outside parts current 0 angle) before ',' rest =
      .ok (if angle = 0 then SplitScan.outside (SplitScan.outside parts current 0 0).pushToken.parts [] 0 0
        else SplitScan.outside parts (current ++ [',']) 0 angle) := by
  by_cases hangle : angle = 0
  · subst hangle
    rfl
  · simp [SplitScan.step, SplitScan.outside, isOpening, isClosing, hangle]

theorem SplitScan.marked_comma (parts : List (List Char)) (current before rest : List Char) (angle : Nat) :
    ∃ parts' current' angle', Marked SplitScan.step SplitScan.insideLiteral (SplitScan.outside parts current 0 angle)
      before [','] rest [false] (SplitScan.outside parts' current' 0 angle') := by
  have hstep := SplitScan.step_comma parts current before rest angle
  split_ifs at hstep with hangle
  · exact ⟨_, _, _, .single hstep rfl⟩
  · exact ⟨_, _, _, .single hstep rfl⟩

def pieces (before current : List Char) (angle : Nat) : List (List Token) → List (List Char)
  | [] => [current]
  | [a] => [current ++ tokensText a]
  | a :: b :: more =>
    let behind := ',' :: tokensText (argumentTokens (b :: more))
    let open' := anglesAfter behind before current angle a
    if open' = 0 then (current ++ tokensText a) :: pieces (',' :: ((tokensText a).reverse ++ before)) [] 0 (b :: more)
    else pieces (',' :: ((tokensText a).reverse ++ before)) (current ++ tokensText a ++ [',']) open' (b :: more)

theorem length_pieces (before current : List Char) (angle : Nat) (a : List Token) (args : List (List Token)) :
    (pieces before current angle (a :: args)).length ≤ args.length + 1 := by
  induction args generalizing before current angle a with
  | nil => exact le_refl _
  | cons b more ih =>
    rw [pieces]
    split_ifs with hangle
    · rw [List.length_cons, List.length_cons]
      exact Nat.succ_le_succ (ih _ _ _ b)
    · exact (ih _ _ _ b).trans (Nat.le_succ _)

theorem anglesClosed_of_length {before : List Char} {a : List Token} {args : List (List Token)}
    (h : (pieces before [] 0 (a :: args)).length = args.length + 1) : AnglesClosed before (a :: args) := by
  induction args generalizing before a with
  | nil => trivial
  | cons b more ih =>
    rw [pieces] at h
    split_ifs at h with hangle
    · rw [List.length_cons, List.length_cons] at h
      exact ⟨hangle, ih (Nat.succ.inj h)⟩
    · have hless := length_pieces (',' :: ((tokensText a).reverse ++ before)) ([] ++ tokensText a ++ [','])
        (anglesAfter (',' :: tokensText (argumentTokens (b :: more))) before [] 0 a) b more
      rw [h, List.length_cons] at hless
      exact absurd hless (Nat.not_succ_le_self _)

theorem pieces_of_anglesClosed {before : List Char} {a : List Token} {args : List (List Token)}
    (h : AnglesClosed before (a :: args)) : pieces before [] 0 (a :: args) = (a :: args).map tokensText := by
  induction args generalizing before a with
  | nil => rfl
  | cons b more ih =>
    rw [pieces, h.1, if_pos rfl, ih h.2]
    rfl

theorem SplitScan.marked_arguments {args : List (List Token)} (hargs : ∀ a ∈ args, IsArgument a)
    {before : List Char} (happ : ReadsApostrophes [] before (argumentTokens args))
    (hescaped : ∀ a ∈ args, ∀ t ∈ a, t.Escaped) (parts : List (List Char)) (current : List Char) (angle : Nat) :
    ∃ st : SplitScan, st.pushToken.parts = parts ++ (keptItems trimView (pieces before current angle args)).map unquote ∧
      Marked SplitScan.step SplitScan.insideLiteral (SplitScan.outside parts current 0 angle) before
        (tokensText (argumentTokens args)) [] ((argumentTokens args).flatMap Token.splitterPlaces) st := by
  have hpush : ∀ (parts : List (List Char)) (current : List Char) (angle : Nat),
      (SplitScan.outside parts current 0 angle).pushToken.parts = parts ++ (keptItems trimView [current]).map unquote := by
    intro parts current angle
    by_cases hblank : trimView current = []
    · simp [SplitScan.pushToken, SplitScan.outside, keptItems, hblank]
    · simp [SplitScan.pushToken, SplitScan.outside, keptItems, hblank]
  induction args generalizing before parts current angle with
  | nil => exact ⟨_, hpush parts current angle, .done⟩
  | cons a args ih =>
    obtain ⟨ha, hargs⟩ := List.forall_mem_cons.mp hargs
    obtain ⟨hescape, hescaped⟩ := List.forall_mem_cons.mp hescaped
    cases args with
    | nil =>
      rw [argumentTokens_single] at happ ⊢
      have htokens := SplitScan.marked_tokens ha.spelled ha.balanced happ hescape parts current angle
      exact ⟨_, hpush _ _ _, htokens⟩
    | cons b more =>
      rw [argumentTokens_cons] at happ ⊢
      obtain ⟨happ, -, hmore⟩ := readsApostrophes_append.mp happ
      have htokens := SplitScan.marked_tokens ha.spelled ha.balanced happ hescape parts current angle
      have hbehind : anglesAfter (tokensText (Token.code ',' :: argumentTokens (b :: more)) ++ []) before current angle a =
          anglesAfter (',' :: tokensText (argumentTokens (b :: more))) before current angle a := by
        rw [List.append_nil]
        rfl
      rw [hbehind] at htokens
      have hcomma := SplitScan.step_comma parts (current ++ tokensText a) ((tokensText a).reverse ++ before)
        (tokensText (argumentTokens (b :: more)) ++ [])
        (anglesAfter (',' :: tokensText (argumentTokens (b :: more))) before current angle a)
      have hjoin : ∀ {s st : SplitScan}, SplitScan.step (SplitScan.outside parts (current ++ tokensText a) 0
            (anglesAfter (',' :: tokensText (argumentTokens (b :: more))) before current angle a))
            ((tokensText a).reverse ++ before) ',' (tokensText (argumentTokens (b :: more)) ++ []) = .ok s →
          s.insideLiteral = false →
          Marked SplitScan.step SplitScan.insideLiteral s (',' :: ((tokensText a).reverse ++ before))
            (tokensText (argumentTokens (b :: more))) []
            ((argumentTokens (b :: more)).flatMap Token.splitterPlaces) st →
          Marked SplitScan.step SplitScan.insideLiteral (SplitScan.outside parts current 0 angle) before
            (tokensText (a ++ Token.code ',' :: argumentTokens (b :: more))) []
            ((a ++ Token.code ',' :: argumentTokens (b :: more)).flatMap Token.splitterPlaces) st := by
        intro s st hstep hmark hrest
        have hbehind := Marked.step hstep hrest
        rw [hmark] at hbehind
        rw [tokensText_append, List.flatMap_append]
        refine htokens.append ?_
        exact hbehind
      split_ifs at hcomma with hangle
      · obtain ⟨st, hparts, hrest⟩ := ih hargs hmore hescaped
          (SplitScan.outside parts (current ++ tokensText a) 0 0).pushToken.parts [] 0
        refine ⟨st, ?_, hjoin hcomma rfl hrest⟩
        rw [hparts, hpush, pieces, if_pos hangle, List.append_assoc, ← List.map_append, ← keptItems_cons]
        rfl
      · obtain ⟨st, hparts, hrest⟩ := ih hargs hmore hescaped parts (current ++ tokensText a ++ [','])
          (anglesAfter (',' :: tokensText (argumentTokens (b :: more))) before current angle a)
        refine ⟨st, ?_, hjoin hcomma rfl hrest⟩
        rw [hparts, pieces, if_neg hangle]
        rfl

theorem SplitScan.escaped_arguments {args : List (List Token)} (hargs : ∀ a ∈ args, IsArgument a)
    {before : List Char} (happ : ReadsApostrophes [] before (argumentTokens args))
    {parts : List (List Char)} {current : List Char} {angle : Nat}
    (hmarks : marks SplitScan.step SplitScan.insideLiteral (SplitScan.outside parts current 0 angle) before
      (tokensText (argumentTokens args)) = (argumentTokens args).flatMap Token.splitterPlaces) :
    ∀ a ∈ args, ∀ t ∈ a, t.Escaped := by
  induction args generalizing before parts current angle with
  | nil => exact fun _ ha => (nomatch ha)
  | cons a args ih =>
    obtain ⟨ha, hargs⟩ := List.forall_mem_cons.mp hargs
    cases args with
    | nil =>
      rw [argumentTokens_single] at happ hmarks
      rw [← List.append_nil (tokensText a), ← List.append_nil (a.flatMap _)] at hmarks
      exact List.forall_mem_singleton.mpr (SplitScan.escaped_of_marks ha.spelled ha.balanced happ hmarks)
    | cons b more =>
      rw [argumentTokens_cons] at happ hmarks
      obtain ⟨happ, -, hmore⟩ := readsApostrophes_append.mp happ
      rw [tokensText_append, List.flatMap_append] at hmarks
      rw [List.append_nil] at happ
      have hescape := SplitScan.escaped_of_marks ha.spelled ha.balanced happ hmarks
      have htokens := SplitScan.marked_tokens ha.spelled ha.balanced happ hescape parts current angle
      rw [List.length_nil] at htokens
      rw [htokens.marks_append] at hmarks
      have hbehind := List.append_cancel_left hmarks
      obtain ⟨parts', current', angle', hcomma⟩ := SplitScan.marked_comma parts (current ++ tokensText a)
        ((tokensText a).reverse ++ before) (tokensText (argumentTokens (b :: more)))
        (anglesAfter (tokensText (Token.code ',' :: argumentTokens (b :: more))) before current angle a)
      have hcommas := hcomma.marks_append.symm.trans hbehind
      have hrest := List.append_cancel_left hcommas
      exact List.forall_mem_cons.mpr ⟨hescape, ih hargs hmore hrest⟩

-- ---------------------------------------------------------------------------
-- Both scanners on the whole text
-- ---------------------------------------------------------------------------

theorem Token.round_of_nest {t : Token} (hspelled : t.Spelled) {stack stack' : List Char}
    (h : t.nest stack = some stack') : t.round (1 + stack.count ')') = some (1 + stack'.count ')') := by
  cases t with
  | opening ch =>
    simp only [Token.Spelled, isOpening, Bool.or_eq_true, beq_iff_eq] at hspelled
    cases h
    obtain (rfl | rfl) | rfl := hspelled
    · simp [Token.round, Nat.add_assoc]
    · simp [Token.round]
    · simp [Token.round]
  | closing ch =>
    cases stack with
    | nil => cases h
    | cons closer stack =>
      rw [Token.nest] at h
      split at h
      · rename_i hch
        cases h
        subst hch
        by_cases hround : ch = ')'
        · subst hround
          simp [Token.round, ← Nat.add_assoc]
        · simp [Token.round, hround]
      · cases h
  | _ =>
    cases h
    rfl

theorem roundsAfter_of_nestAfter {ts : List Token} (hspelled : ∀ t ∈ ts, t.Spelled) {stack stack' : List Char}
    (h : nestAfter stack ts = some stack') : roundsAfter (1 + stack.count ')') ts = some (1 + stack'.count ')') := by
  induction ts generalizing stack with
  | nil =>
    cases h
    rfl
  | cons t ts ih =>
    obtain ⟨ht, hts⟩ := List.forall_mem_cons.mp hspelled
    obtain ⟨next, hnext, hrest⟩ := Option.bind_eq_some_iff.mp h
    exact Option.bind_eq_some_iff.mpr ⟨_, Token.round_of_nest ht hnext, ih hts hrest⟩

theorem roundsAfter_append {depth depth' : Nat} {ts us : List Token} (h : roundsAfter depth ts = some depth') :
    roundsAfter depth (ts ++ us) = roundsAfter depth' us := by
  induction ts generalizing depth with
  | nil =>
    cases h
    rfl
  | cons t ts ih =>
    obtain ⟨next, hnext, hrest⟩ := Option.bind_eq_some_iff.mp h
    rw [List.cons_append, roundsAfter, hnext]
    exact ih hrest

theorem roundsAfter_arguments {args : List (List Token)} (hargs : ∀ a ∈ args, IsArgument a) :
    roundsAfter 1 (argumentTokens args) = some 1 := by
  induction args with
  | nil => rfl
  | cons a args ih =>
    obtain ⟨ha, hargs⟩ := List.forall_mem_cons.mp hargs
    have hround : roundsAfter 1 a = some 1 :=
      roundsAfter_of_nestAfter ha.spelled (nestAfter_of_bracketsAfter ha.balanced)
    cases args with
    | nil =>
      rw [argumentTokens_single]
      exact hround
    | cons b more =>
      rw [argumentTokens_cons, roundsAfter_append hround]
      exact ih hargs

theorem spelled_arguments {args : List (List Token)} (hargs : ∀ a ∈ args, IsArgument a) :
    ∀ t ∈ argumentTokens args, t.Spelled := by
  induction args with
  | nil => exact fun _ ht => (nomatch ht)
  | cons a args ih =>
    obtain ⟨ha, hargs⟩ := List.forall_mem_cons.mp hargs
    cases args with
    | nil =>
      rw [argumentTokens_single]
      exact ha.spelled
    | cons b more =>
      rw [argumentTokens_cons, List.forall_mem_append, List.forall_mem_cons]
      exact ⟨ha.spelled, ⟨by decide, by decide, rfl, rfl⟩, ih hargs⟩

theorem isCharLiteralPrefix_plain {ch outer : Char} (h : ¬(ch = '8' ∧ outer = 'u')) (before : List Char) :
    isCharLiteralPrefix (ch :: outer :: before) = ((ch == 'L' || ch == 'u' || ch == 'U') && !isWordChar outer) := by
  unfold isCharLiteralPrefix
  split
  · rename_i heq
    obtain ⟨hch, htail⟩ := List.cons.inj heq
    exact absurd ⟨hch, (List.cons.inj htail).1⟩ h
  · rename_i heq
    obtain ⟨rfl, rfl⟩ := List.cons.inj heq
    rfl
  · rename_i heq
    cases heq

/-- What stands in front of a byte that is part of no word says nothing about an apostrophe. -/
theorem shouldEnterCharLiteral_front {ch : Char} (hch : isWordChar ch = false) (before front rest : List Char) :
    shouldEnterCharLiteral (before ++ ch :: front) rest = shouldEnterCharLiteral before rest := by
  have hletters : ∀ letter ∈ ['8', 'L', 'u', 'U'], ch ≠ letter := by
    rintro letter hletter rfl
    have hword : ∀ letter ∈ ['8', 'L', 'u', 'U'], isWordChar letter = true := List.all_iff_forall_prop.mp (by decide)
    rw [hword ch hletter] at hch
    cases hch
  simp only [List.mem_cons, List.not_mem_nil, or_false, forall_eq_or_imp, forall_eq] at hletters
  have hlead : isCharLiteralPrefix (before ++ ch :: front) = isCharLiteralPrefix before := by
    match before with
    | [] => simp [isCharLiteralPrefix, hletters]
    | [last] => simp [isCharLiteralPrefix, hch, hletters]
    | [last, outer] =>
      by_cases h : last = '8' ∧ outer = 'u'
      · obtain ⟨rfl, rfl⟩ := h
        simp [isCharLiteralPrefix, hch]
      · exact (isCharLiteralPrefix_plain h _).trans (isCharLiteralPrefix_plain h _).symm
    | last :: outer :: next :: before =>
      by_cases h : last = '8' ∧ outer = 'u'
      · obtain ⟨rfl, rfl⟩ := h
        rfl
      · exact (isCharLiteralPrefix_plain h _).trans (isCharLiteralPrefix_plain h _).symm
  cases before with
  | nil =>
    have halnum : ch.isAlphanum = false := by
      simp only [isWordChar, Bool.or_eq_false_iff] at hch
      exact hch.1
    simp only [shouldEnterCharLiteral, hlead]
    simp [halnum]
  | cons last before =>
    simp only [shouldEnterCharLiteral, hlead]
    rfl

theorem shouldEnterCharLiteral_congr {rest rest' : List Char} (h : rest.head? = rest'.head?) (before : List Char) :
    shouldEnterCharLiteral before rest = shouldEnterCharLiteral before rest' := by
  simp only [shouldEnterCharLiteral, List.headD_eq_head?_getD, h]

theorem Token.readsApostrophe_inside {t : Token} {before front rest : List Char}
    (h : t.ReadsApostrophe (before ++ '(' :: front) (rest ++ [')'])) : t.ReadsApostrophe before rest := by
  cases t with
  | separator =>
    have henter : shouldEnterCharLiteral before (rest ++ [')']) = false :=
      (shouldEnterCharLiteral_front (by decide) before front _).symm.trans h
    cases rest with
    | nil => simp [shouldEnterCharLiteral] at henter
    | cons ch rest => exact (shouldEnterCharLiteral_congr rfl before).trans henter
  | character body =>
    have henter : shouldEnterCharLiteral before (body ++ '\'' :: (rest ++ [')'])) = true :=
      (shouldEnterCharLiteral_front (by decide) before front _).symm.trans h
    refine (shouldEnterCharLiteral_congr ?_ before).trans henter
    cases body with
    | nil => rfl
    | cons ch body => rfl
  | _ => trivial

theorem readsApostrophes_of_found {ts : List Token} {before front rest : List Char}
    (h : Found (rest ++ [')']) (before ++ '(' :: front) ts) : ReadsApostrophes rest before ts := by
  induction ts generalizing before with
  | nil => trivial
  | cons t ts ih =>
    obtain ⟨⟨-, happ⟩, hmore⟩ := h
    rw [← List.append_assoc] at happ hmore
    exact ⟨Token.readsApostrophe_inside happ, ih hmore⟩

theorem parseAttributeList_single {name inside : List Char} (hname : isIdentifier name = true)
    (hclose : scan ClosingScan.step {} ('(' :: name.reverse) (inside ++ [')']) = .error (inside, [])) :
    parseAttributeList (name ++ '(' :: (inside ++ [')'])) = [⟨name, splitArguments inside⟩] := by
  obtain ⟨ch, more, rfl⟩ := List.exists_cons_of_ne_nil (show name ≠ [] from fun h => by rw [h] at hname; cases hname)
  have hends : EndsName ('(' :: (inside ++ [')'])) := by
    intro next hnext
    cases hnext
    rfl
  have hspace : isSpace ch = false := isSpace_of_isIdentifierChar (isIdentifier_all hname ch List.mem_cons_self)
  have hleading := leadingName_append hname hends
  have hbefore : textBefore (ch :: more ++ '(' :: (inside ++ [')'])) (inside ++ [')']) = '(' :: (ch :: more).reverse := by
    have hlength : (ch :: more ++ '(' :: (inside ++ [')'])).length - (inside ++ [')']).length =
        (ch :: more ++ ['(']).length := by
      simp
      omega
    have htake : ch :: more ++ '(' :: (inside ++ [')']) = (ch :: more ++ ['(']) ++ (inside ++ [')']) := by simp
    rw [textBefore, hlength, htake, List.take_left]
    simp
  have hscopes : ∀ rounds, readScopes rounds (ch :: more) ('(' :: (inside ++ [')'])) =
      (ch :: more, '(' :: (inside ++ [')'])) := by
    intro rounds
    cases rounds with
    | zero => rfl
    | succ rounds => rfl
  have harguments : readArguments (ch :: more ++ '(' :: (inside ++ [')'])) ('(' :: (inside ++ [')'])) =
      (splitArguments inside, []) := by
    rw [readArguments, hbefore, hclose]
  have hend : ∀ rounds, parseAttributes (ch :: more ++ '(' :: (inside ++ [')'])) rounds [] = [] := by
    intro rounds
    cases rounds with
    | zero => rfl
    | succ rounds => rfl
  rw [List.cons_append] at hleading
  have hparen : ('(' :: (inside ++ [')'])).dropWhile isSpace = '(' :: (inside ++ [')']) := rfl
  rw [parseAttributeList, List.cons_append, List.length_cons, parseAttributes,
    List.dropWhile_cons_of_neg (by simp [hspace])]
  simp only [hleading, hscopes, hparen]
  rw [← List.cons_append, harguments]
  exact congrArg _ (hend _)

section

variable {name : List Char} {args : List (List Token)}

theorem ClosingScan.finds (hargs : ∀ a ∈ args, IsArgument a)
    (hfound : Found [')'] ('(' :: name.reverse) (argumentTokens args)) :
    marks ClosingScan.step ClosingScan.insideLiteral {} ('(' :: name.reverse) (tokensText (argumentTokens args) ++ [')']) =
        (argumentTokens args).flatMap Token.places ∧
      scan ClosingScan.step {} ('(' :: name.reverse) (tokensText (argumentTokens args) ++ [')']) =
        .error (tokensText (argumentTokens args), []) := by
  have hmarked := ClosingScan.marked_tokens (spelled_arguments hargs) (roundsAfter_arguments hargs) hfound []
  have hclose : ∀ before, ClosingScan.step (ClosingScan.outside 1 (tokensText (argumentTokens args))) before ')' [] =
      .error (tokensText (argumentTokens args), []) := fun before => rfl
  constructor
  · have hmarks := hmarked.marks_append
    rw [List.nil_append, marks, hclose, List.append_nil] at hmarks
    exact hmarks
  · have hscan := hmarked.reads.scan_append
    rw [List.nil_append, scan, hclose] at hscan
    exact hscan

theorem splitArguments_tokens (hargs : ∀ a ∈ args, IsArgument a) (happ : ReadsApostrophes [] [] (argumentTokens args))
    (hescaped : ∀ a ∈ args, ∀ t ∈ a, t.Escaped) :
    marks SplitScan.step SplitScan.insideLiteral {} [] (tokensText (argumentTokens args)) =
        (argumentTokens args).flatMap Token.splitterPlaces ∧
      splitArguments (tokensText (argumentTokens args)) = (keptItems trimView (pieces [] [] 0 args)).map unquote := by
  obtain ⟨st, hparts, hmarked⟩ := SplitScan.marked_arguments hargs happ hescaped [] [] 0
  constructor
  · have hmarks := hmarked.marks_append
    rw [List.append_nil, marks, List.append_nil] at hmarks
    exact hmarks
  · have hscan := hmarked.reads.scan_all
    have hstart : SplitScan.outside [] [] 0 0 = {} := rfl
    rw [hstart] at hscan
    rw [splitArguments, hscan]
    exact hparts

theorem attribute_parsed (hname : isIdentifier name = true) (hargs : ∀ a ∈ args, IsArgument a)
    (hfound : Found [')'] ('(' :: name.reverse) (argumentTokens args)) (hescaped : ∀ a ∈ args, ∀ t ∈ a, t.Escaped) :
    parseAttributeList (attributeOf name args) =
      [⟨name, (keptItems trimView (pieces [] [] 0 args)).map unquote⟩] := by
  have happ : ReadsApostrophes [] [] (argumentTokens args) := readsApostrophes_of_found hfound
  have hparsed := parseAttributeList_single hname (ClosingScan.finds hargs hfound).2
  rw [(splitArguments_tokens hargs happ hescaped).2] at hparsed
  exact hparsed

/-- Arguments made of tokens come out as they were written, both scanners seeing the
literals where they are, exactly when the scanners can read them. -/
theorem literalsRespected_iff (hname : isIdentifier name = true) (hargs : ∀ a ∈ args, IsArgument a) :
    LiteralsRespected name args ↔ Readable name args := by
  constructor
  · rintro ⟨harguments, hfinder, hsplitter⟩
    have hfound : Found [')'] ('(' :: name.reverse) (argumentTokens args) := by
      rw [← List.append_nil ((argumentTokens args).flatMap Token.places)] at hfinder
      exact ClosingScan.found_of_marks (spelled_arguments hargs) (roundsAfter_arguments hargs) hfinder
    have happ : ReadsApostrophes [] [] (argumentTokens args) := readsApostrophes_of_found hfound
    have hescaped : ∀ a ∈ args, ∀ t ∈ a, t.Escaped := SplitScan.escaped_arguments hargs happ hsplitter
    have hlength := congrArg (List.map fun parsed => parsed.arguments.length)
      ((attribute_parsed hname hargs hfound hescaped).symm.trans harguments)
    simp only [List.map_cons, List.map_nil, List.length_map, List.cons.injEq, and_true] at hlength
    cases args with
    | nil => exact ⟨hfound, hescaped, trivial, fun _ ha => (nomatch ha)⟩
    | cons a args =>
      have hkept : (keptItems trimView (pieces [] [] 0 (a :: args))).length ≤ (pieces [] [] 0 (a :: args)).length :=
        (List.length_filter_le ..).trans_eq (List.length_map _)
      have hpieces := length_pieces [] [] 0 a args
      rw [List.length_cons] at hlength
      have hangles : AnglesClosed [] (a :: args) := anglesClosed_of_length (by omega)
      rw [pieces_of_anglesClosed hangles] at hlength
      refine ⟨hfound, hescaped, hangles, fun b hb => ?_⟩
      have hall := @keptItems_all trimView ((a :: args).map tokensText) (by simpa using hlength)
      have hmem : trimView (tokensText b) ∈ keptItems trimView ((a :: args).map tokensText) :=
        hall ▸ List.mem_map_of_mem (List.mem_map_of_mem hb)
      simpa using (List.mem_filter.mp hmem).2
  · rintro ⟨hfound, hescaped, hangles, hblank⟩
    have happ : ReadsApostrophes [] [] (argumentTokens args) := readsApostrophes_of_found hfound
    refine ⟨?_, (ClosingScan.finds hargs hfound).1, (splitArguments_tokens hargs happ hescaped).1⟩
    rw [attribute_parsed hname hargs hfound hescaped]
    cases args with
    | nil => rfl
    | cons a args =>
      rw [pieces_of_anglesClosed hangles, keptItems_eq_map, List.map_map, List.map_map]
      · rfl
      · intro item hitem
        obtain ⟨a, ha, rfl⟩ := List.mem_map.mp hitem
        exact hblank a ha

end

def plain (text : String) : List Token := text.toList.map .code

/-- A comma or a parenthesis in each kind of literal, a number with a separator and a
call with a template argument. -/
def mixedArguments : List (List Token) :=
  [[.string "a, (b\\\"".toList],
    plain " u8" ++ [.character [',']],
    [.code ' ', .raw ['u', '8', 'R', '"'] ['x'] "raw, )\\\" text".toList],
    plain " 1" ++ [.separator] ++ plain "000",
    plain " f" ++ [.opening '('] ++ plain "g<x, y>" ++ [.opening '(', .closing ')', .closing ')']]

theorem mixed_arguments_respected : LiteralsRespected "parameters".toList mixedArguments :=
  (literalsRespected_iff (by decide) (by decide +kernel)).mpr
    { found := by decide +kernel
      escaped := by decide +kernel
      angles := by decide +kernel
      notBlank := by decide +kernel }

/-- `test(R"(a"b, c)")` -/
def quoteInside : List (List Token) := [[.raw ['R', '"'] [] "a\"b, c".toList]]

/-- The raw string is found as one, then split at its comma. -/
theorem quote_inside_splits : (∀ a ∈ quoteInside, IsArgument a) ∧
    parseAttributeList (attributeOf "test".toList quoteInside) ≠
      [⟨"test".toList, quoteInside.map fun a => unquote (trimView (tokensText a))⟩] := by
  decide +kernel

end Gentest.Codegen
