import Gentest.Codegen.TopLevelItems
import Gentest.Lib.Marks

/-!
# Arguments made of C++ tokens

The arguments of an attribute are read twice: the search for the parenthesis behind
them knows raw strings, the comma splitter does not, and both tell an apostrophe
that opens a literal from one inside a number by its neighbours. What is between
them and the written tokens decides what the arguments come out as.
-/

namespace Gentest.Codegen

open Scanner

-- ---------------------------------------------------------------------------
-- Tokens
-- ---------------------------------------------------------------------------

/-- Words, numbers, operators and white space go byte by byte. -/
inductive Token
  | code (ch : Char)
  /-- The apostrophe in a number. -/
  | separator
  | opening (ch : Char)
  | closing (ch : Char)
  | string (body : List Char)
  | character (body : List Char)
  | raw (start delimiter content : List Char)

namespace Token

@[simp] def text : Token → List Char
  | .code ch => [ch]
  | .separator => ['\'']
  | .opening ch => [ch]
  | .closing ch => [ch]
  | .string body => '"' :: (body ++ ['"'])
  | .character body => '\'' :: (body ++ ['\''])
  | .raw start delimiter content => start ++ delimiter ++ ('(' :: content) ++ (')' :: delimiter) ++ ['"']

def rawContent (delimiter : List Char) : List Char → Bool
  | [] => true
  | ch :: rest =>
    !(ch == ')' && rawStringClosesHere delimiter (rest ++ (')' :: delimiter) ++ ['"'])) && rawContent delimiter rest

def Spelled : Token → Prop
  | .code ch => ch ≠ '"' ∧ ch ≠ '\'' ∧ isOpening ch = false ∧ isClosing ch = false
  | .separator => True
  | .opening ch => isOpening ch = true
  | .closing ch => isClosing ch = true
  | .string body => StaysInside '\\' '"' false body
  | .character body => StaysInside '\\' '\'' false body
  | .raw start delimiter content => start ∈ rawStringPrefixes ∧
    (∀ ch ∈ delimiter, ch ≠ '(' ∧ ch ≠ ')' ∧ ch ≠ '\\' ∧ isSpace ch = false) ∧ rawContent delimiter content = true

instance decidableSpelled : ∀ t : Token, Decidable t.Spelled
  | .code _ => inferInstanceAs (Decidable (_ ∧ _))
  | .separator => isTrue trivial
  | .opening _ => inferInstanceAs (Decidable (_ = true))
  | .closing _ => inferInstanceAs (Decidable (_ = true))
  | .string _ => inferInstanceAs (Decidable (StaysInside _ _ _ _))
  | .character _ => inferInstanceAs (Decidable (StaysInside _ _ _ _))
  | .raw _ _ _ => inferInstanceAs (Decidable (_ ∧ _))

/-- The brackets to be closed behind the token, the innermost first. -/
def nest : Token → List Char → Option (List Char)
  | .opening ch, stack => some ((if ch = '(' then ')' else if ch = '[' then ']' else '\x7d') :: stack)
  | .closing ch, closer :: stack => if ch = closer then some stack else none
  | .closing _, [] => none
  | _, stack => some stack

/-- A comma or a `<` stands inside of brackets only. -/
def brackets (t : Token) (stack : List Char) : Option (List Char) :=
  match t, stack with
  | .code ch, [] => if ch = ',' ∨ ch = '<' then none else some []
  | t, stack => t.nest stack

end Token

def nestAfter : List Char → List Token → Option (List Char)
  | stack, [] => some stack
  | stack, t :: ts => (t.nest stack).bind (nestAfter · ts)

def bracketsAfter : List Char → List Token → Option (List Char)
  | stack, [] => some stack
  | stack, t :: ts => (t.brackets stack).bind (bracketsAfter · ts)

theorem Token.nest_of_brackets {t : Token} {stack stack' : List Char} (h : t.brackets stack = some stack') :
    t.nest stack = some stack' := by
  unfold Token.brackets at h
  split at h
  · split at h
    · cases h
    · exact h
  · exact h

theorem nestAfter_of_bracketsAfter {ts : List Token} {stack stack' : List Char}
    (h : bracketsAfter stack ts = some stack') : nestAfter stack ts = some stack' := by
  induction ts generalizing stack with
  | nil => exact h
  | cons t ts ih =>
    obtain ⟨next, hnext, hrest⟩ := Option.bind_eq_some_iff.mp h
    exact Option.bind_eq_some_iff.mpr ⟨next, Token.nest_of_brackets hnext, ih hrest⟩

/-- An argument: tokens with balanced brackets, no comma and no `<` at its top level. -/
structure IsArgument (a : List Token) : Prop where
  spelled : ∀ t ∈ a, t.Spelled
  balanced : bracketsAfter [] a = some []

theorem isArgument_iff {a : List Token} : IsArgument a ↔ (∀ t ∈ a, t.Spelled) ∧ bracketsAfter [] a = some [] :=
  ⟨fun h => ⟨h.spelled, h.balanced⟩, fun h => ⟨h.1, h.2⟩⟩

instance (a : List Token) : Decidable (IsArgument a) := decidable_of_iff _ isArgument_iff.symm

def tokensText (ts : List Token) : List Char := ts.flatMap Token.text

def argumentTokens (args : List (List Token)) : List Token := [Token.code ','].intercalate args

def attributeOf (name : List Char) (args : List (List Token)) : List Char :=
  name ++ '(' :: (tokensText (argumentTokens args) ++ [')'])

@[simp] theorem tokensText_nil : tokensText [] = [] := rfl

@[simp] theorem tokensText_cons (t : Token) (ts : List Token) : tokensText (t :: ts) = t.text ++ tokensText ts := rfl

@[simp] theorem tokensText_append (ts us : List Token) : tokensText (ts ++ us) = tokensText ts ++ tokensText us :=
  List.flatMap_append

@[simp] theorem argumentTokens_nil : argumentTokens [] = [] := rfl

@[simp] theorem argumentTokens_single (a : List Token) : argumentTokens [a] = a := List.intercalate_singleton

@[simp] theorem argumentTokens_cons (a b : List Token) (more : List (List Token)) :
    argumentTokens (a :: b :: more) = a ++ Token.code ',' :: argumentTokens (b :: more) := by
  simp [argumentTokens, List.intercalate_cons_cons]

-- ---------------------------------------------------------------------------
-- Where the two scanners see literals
-- ---------------------------------------------------------------------------

def ClosingScan.insideLiteral (st : ClosingScan) : Bool :=
  st.rawString.isSome || st.quoted.isSome || decide (0 < st.jump)

def SplitScan.insideLiteral (st : SplitScan) : Bool := st.quoted.isSome

namespace Token

/-- A literal reaches from its first byte to before its last one. -/
def places (t : Token) : List Bool := List.replicate (t.text.length - 1) true ++ [false]

/-- The letters in front of the quote are no part of the literal for the splitter. -/
def lead : Token → List Char
  | .raw start _ _ => start.dropLast
  | _ => []

def splitterPlaces (t : Token) : List Bool :=
  List.replicate t.lead.length false ++ List.replicate (t.text.length - 1 - t.lead.length) true ++ [false]

end Token

/-- The arguments come out as they were written, and the two scanners see literals
where they are. -/
structure LiteralsRespected (name : List Char) (args : List (List Token)) : Prop where
  arguments : parseAttributeList (attributeOf name args) =
    [⟨name, args.map fun a => unquote (trimView (tokensText a))⟩]
  finder : marks ClosingScan.step ClosingScan.insideLiteral {} ('(' :: name.reverse)
    (tokensText (argumentTokens args) ++ [')']) = (argumentTokens args).flatMap Token.places
  splitter : marks SplitScan.step SplitScan.insideLiteral {} [] (tokensText (argumentTokens args)) =
    (argumentTokens args).flatMap Token.splitterPlaces

-- ---------------------------------------------------------------------------
-- What the scanners can read
-- ---------------------------------------------------------------------------

namespace Token

def NoRawStart (rest : List Char) : Token → Prop
  | .code ch => detectRawStringStart (ch :: rest) = none
  | _ => True

/-- An apostrophe opens a literal unless it stands in a number. -/
def ReadsApostrophe (before rest : List Char) : Token → Prop
  | .separator => shouldEnterCharLiteral before rest = false
  | .character body => shouldEnterCharLiteral before (body ++ '\'' :: rest) = true
  | _ => True

/-- A backslash stands in front of each quote of a raw string. -/
def Escaped : Token → Prop
  | .raw _ delimiter content => StaysInside '\\' '"' false (delimiter ++ ('(' :: content) ++ (')' :: delimiter))
  | _ => True

instance decidableNoRawStart (rest : List Char) : ∀ t : Token, Decidable (t.NoRawStart rest)
  | .code ch => decidable_of_iff ((detectRawStringStart (ch :: rest)).isNone = true) Option.isNone_iff_eq_none
  | .separator | .opening _ | .closing _ | .string _ | .character _ | .raw _ _ _ => isTrue trivial

instance decidableReadsApostrophe (before rest : List Char) : ∀ t : Token, Decidable (t.ReadsApostrophe before rest)
  | .separator => inferInstanceAs (Decidable (_ = false))
  | .character _ => inferInstanceAs (Decidable (_ = true))
  | .code _ | .opening _ | .closing _ | .string _ | .raw _ _ _ => isTrue trivial

instance decidableEscaped : ∀ t : Token, Decidable t.Escaped
  | .raw _ _ _ => inferInstanceAs (Decidable (StaysInside _ _ _ _))
  | .code _ | .separator | .opening _ | .closing _ | .string _ | .character _ => isTrue trivial

def angles (before current rest : List Char) : Token → Nat → Nat
  | .code ch, angle =>
    if ch = '<' then if shouldOpenAngle current before rest then angle + 1 else angle
    else if ch = '>' then angle - 1
    else angle
  | _, angle => angle

end Token

def Found (rest : List Char) : List Char → List Token → Prop
  | _, [] => True
  | before, t :: ts =>
    (t.NoRawStart (tokensText ts ++ rest) ∧ t.ReadsApostrophe before (tokensText ts ++ rest)) ∧
      Found rest (t.text.reverse ++ before) ts

def anglesAfter (rest : List Char) : List Char → List Char → Nat → List Token → Nat
  | _, _, angle, [] => angle
  | before, current, angle, t :: ts =>
    anglesAfter rest (t.text.reverse ++ before) (current ++ t.text)
      (t.angles before current (tokensText ts ++ rest) angle) ts

/-- No angle bracket is open at the comma behind an argument. -/
def AnglesClosed (before : List Char) : List (List Token) → Prop
  | a :: b :: more =>
    anglesAfter (',' :: tokensText (argumentTokens (b :: more))) before [] 0 a = 0 ∧
      AnglesClosed (',' :: ((tokensText a).reverse ++ before)) (b :: more)
  | _ => True

instance decidableFound (rest : List Char) : ∀ (before : List Char) (ts : List Token), Decidable (Found rest before ts)
  | _, [] => isTrue trivial
  | before, t :: ts =>
    have := decidableFound rest (t.text.reverse ++ before) ts
    inferInstanceAs (Decidable ((_ ∧ _) ∧ _))

instance decidableAnglesClosed : ∀ (before : List Char) (args : List (List Token)), Decidable (AnglesClosed before args)
  | before, a :: b :: more =>
    have := decidableAnglesClosed (',' :: ((tokensText a).reverse ++ before)) (b :: more)
    inferInstanceAs (Decidable (_ ∧ _))
  | _, [_] => isTrue trivial
  | _, [] => isTrue trivial

structure Readable (name : List Char) (args : List (List Token)) : Prop where
  found : Found [')'] ('(' :: name.reverse) (argumentTokens args)
  escaped : ∀ a ∈ args, ∀ t ∈ a, t.Escaped
  angles : AnglesClosed [] args
  notBlank : ∀ a ∈ args, trimView (tokensText a) ≠ []

-- ---------------------------------------------------------------------------
-- Raw strings
-- ---------------------------------------------------------------------------

theorem rawDelimiter_append {allowed : Char → Bool} {delimiter : List Char}
    (h : ∀ ch ∈ delimiter, allowed ch = true ∧ ch ≠ '(') (rest : List Char) :
    rawDelimiter allowed (delimiter ++ '(' :: rest) = some delimiter := by
  have htake : (delimiter ++ '(' :: rest).takeWhile (· != '(') = delimiter := by
    rw [List.takeWhile_append_of_pos fun ch hch => by simpa using (h ch hch).2]
    simp
  have hall : delimiter.all allowed = true := List.all_eq_true.mpr fun ch hch => (h ch hch).1
  simp [rawDelimiter, htake, hall]

theorem detectRawStringStart_raw {start delimiter : List Char} (hstart : start ∈ rawStringPrefixes)
    (h : ∀ ch ∈ delimiter, ch ≠ '(' ∧ ch ≠ ')' ∧ ch ≠ '\\' ∧ isSpace ch = false) (rest : List Char) :
    detectRawStringStart (start ++ (delimiter ++ '(' :: rest)) =
      some ⟨start.length + delimiter.length + 1, delimiter⟩ := by
  have hdelimiter : ∀ ch ∈ delimiter, (ch != '\\' && ch != ')' && !isSpace ch) = true ∧ ch ≠ '(' := by
    intro ch hch
    obtain ⟨hopen, hclose, hmark, hspace⟩ := h ch hch
    exact ⟨by simp [hclose, hmark, hspace], hopen⟩
  have hfind : rawStringPrefixes.find? (·.isPrefixOf (start ++ (delimiter ++ '(' :: rest))) = some start := by
    simp only [rawStringPrefixes, List.mem_cons, List.not_mem_nil, or_false] at hstart
    obtain rfl | rfl | rfl | rfl | rfl := hstart
    all_goals simp [rawStringPrefixes, List.isPrefixOf]
  simp only [detectRawStringStart, hfind, List.drop_left, rawDelimiter_append hdelimiter, Option.map_some]

theorem rawStringClosesHere_append {delimiter front : List Char} (h : delimiter.length < front.length) (rest : List Char) :
    rawStringClosesHere delimiter (front ++ rest) = rawStringClosesHere delimiter front := by
  rw [Bool.eq_iff_iff, rawStringClosesHere, rawStringClosesHere, List.isPrefixOf_iff_prefix, List.isPrefixOf_iff_prefix]
  constructor
  · intro hstarts
    exact List.prefix_of_prefix_length_le hstarts (List.prefix_append front rest)
      (by rw [List.length_append]; exact h)
  · exact fun hstarts => hstarts.trans (List.prefix_append front rest)

/-- A scanner that goes past a raw string in one of its states: up to its `(` and from
its `)` on it counts down what it has already looked at. -/
structure ReadsRaw {σ ρ : Type*} (step : σ → List Char → Char → List Char → Except ρ σ) (inside : σ → Bool)
    (raw : List Char → Nat → List Char → σ) (closed : Nat → List Char → σ) : Prop where
  jumps : ∀ delimiter n text before ch rest,
    step (raw delimiter (n + 1) text) before ch rest = .ok (raw delimiter n (text ++ [ch]))
  stays : ∀ delimiter text before ch rest, ¬(ch = ')' ∧ rawStringClosesHere delimiter rest = true) →
    step (raw delimiter 0 text) before ch rest = .ok (raw delimiter 0 (text ++ [ch]))
  closes : ∀ delimiter text before rest, rawStringClosesHere delimiter rest = true →
    step (raw delimiter 0 text) before ')' rest = .ok (closed (delimiter.length + 1) (text ++ [')']))
  ends : ∀ n text before ch rest, step (closed (n + 1) text) before ch rest = .ok (closed n (text ++ [ch]))
  within : ∀ delimiter n text, inside (raw delimiter n text) = true
  ending : ∀ n text, inside (closed n text) = decide (0 < n)

namespace ReadsRaw

variable {σ ρ : Type*} {step : σ → List Char → Char → List Char → Except ρ σ} {inside : σ → Bool}
  {raw : List Char → Nat → List Char → σ} {closed : Nat → List Char → σ}

theorem marked_jump (h : ReadsRaw step inside raw closed) (delimiter front text before rest : List Char) :
    Marked step inside (raw delimiter front.length text) before front rest (List.replicate front.length true)
      (raw delimiter 0 (text ++ front)) := by
  induction front generalizing text before with
  | nil => simpa using Marked.done
  | cons ch front ih =>
    have hall := Marked.step (h.jumps delimiter front.length text before ch (front ++ rest))
      (ih (text ++ [ch]) (ch :: before))
    rw [h.within, List.append_assoc] at hall
    exact hall

theorem marked_content (h : ReadsRaw step inside raw closed) {delimiter content : List Char}
    (hcontent : Token.rawContent delimiter content = true) (text before rest : List Char) :
    Marked step inside (raw delimiter 0 text) before content ((')' :: delimiter) ++ ['"'] ++ rest)
      (List.replicate content.length true) (raw delimiter 0 (text ++ content)) := by
  induction content generalizing text before with
  | nil => simpa using Marked.done
  | cons ch content ih =>
    simp only [Token.rawContent, Bool.and_eq_true, Bool.not_eq_true', Bool.and_eq_false_iff, beq_eq_false_iff_ne]
      at hcontent
    obtain ⟨hopen, hcontent⟩ := hcontent
    have hcloses : ¬(ch = ')' ∧
        rawStringClosesHere delimiter (content ++ ((')' :: delimiter) ++ ['"'] ++ rest)) = true) := by
      rintro ⟨hch, hcloses⟩
      rw [← List.append_assoc, ← List.append_assoc, rawStringClosesHere_append (by simp; omega)] at hcloses
      obtain hch' | hopen := hopen
      · exact hch' hch
      · rw [hcloses] at hopen
        cases hopen
    have hall := Marked.step (h.stays delimiter text before ch _ hcloses) (ih hcontent (text ++ [ch]) (ch :: before))
    rw [h.within, List.append_assoc text] at hall
    exact hall

theorem marked_closed (h : ReadsRaw step inside raw closed) (front text before rest : List Char) :
    Marked step inside (closed (front.length + 1) text) before (front ++ ['"']) rest
      (List.replicate front.length true ++ [false]) (closed 0 (text ++ (front ++ ['"']))) := by
  induction front generalizing text before with
  | nil => exact .single (h.ends 0 text before '"' rest) (h.ending 0 _)
  | cons ch front ih =>
    have hall := Marked.step (h.ends (front.length + 1) text before ch (front ++ ['"'] ++ rest))
      (ih (text ++ [ch]) (ch :: before))
    rw [h.ending, decide_eq_true (Nat.succ_pos _), List.append_assoc] at hall
    exact hall

/-- From the first letter that the scanner takes for the start to the closing quote. -/
theorem marked_raw (h : ReadsRaw step inside raw closed) {delimiter content front text before rest : List Char} {ch : Char}
    (hcontent : Token.rawContent delimiter content = true)
    (hstart : step (closed 0 text) before ch (front ++ (content ++ ((')' :: delimiter) ++ ['"']) ++ rest)) =
      .ok (raw delimiter front.length (text ++ [ch]))) :
    Marked step inside (closed 0 text) before (ch :: (front ++ (content ++ ((')' :: delimiter) ++ ['"'])))) rest
      (List.replicate (front.length + content.length + delimiter.length + 2) true ++ [false])
      (closed 0 (text ++ ch :: (front ++ (content ++ ((')' :: delimiter) ++ ['"']))))) := by
  have hcloses : rawStringClosesHere delimiter (delimiter ++ ['"'] ++ rest) = true := by
    rw [rawStringClosesHere, List.isPrefixOf_iff_prefix]
    exact List.prefix_append _ _
  have hjump := h.marked_jump delimiter front (text ++ [ch]) (ch :: before)
    (content ++ ((')' :: delimiter) ++ ['"']) ++ rest)
  have hinside := h.marked_content hcontent (text ++ [ch] ++ front) (front.reverse ++ ch :: before) rest
  have hend := Marked.step (h.closes delimiter (text ++ [ch] ++ front ++ content)
      (content.reverse ++ (front.reverse ++ ch :: before)) (delimiter ++ ['"'] ++ rest) hcloses)
    (h.marked_closed delimiter _ _ rest)
  rw [← List.append_assoc] at hstart
  have hall := Marked.step hstart (hjump.append (hinside.append hend))
  rw [h.within, h.ending, decide_eq_true (Nat.succ_pos _)] at hall
  have hmarks : true :: (List.replicate front.length true ++ (List.replicate content.length true ++
      true :: (List.replicate delimiter.length true ++ [false]))) =
      List.replicate (front.length + content.length + delimiter.length + 2) true ++ [false] := by
    simp only [← List.append_assoc, ← List.cons_append, ← List.replicate_succ, List.replicate_append_replicate]
    congr 2
    omega
  rw [hmarks] at hall
  simpa using hall

end ReadsRaw

-- ---------------------------------------------------------------------------
-- The search for the closing parenthesis
-- ---------------------------------------------------------------------------

def ClosingScan.outside (depth : Nat) (text : List Char) : ClosingScan := { depth := depth, inside := text }

def Token.round : Token → Nat → Option Nat
  | .opening ch, depth => some (if ch = '(' then depth + 1 else depth)
  | .closing ch, depth => if ch = ')' then if depth ≤ 1 then none else some (depth - 1) else some depth
  | _, depth => some depth

def roundsAfter : Nat → List Token → Option Nat
  | depth, [] => some depth
  | depth, t :: ts => (t.round depth).bind (roundsAfter · ts)

theorem ClosingScan.marksLiterals (depth : Nat) (quote : Char) :
    MarksLiterals ClosingScan.step ClosingScan.insideLiteral '\\' quote (ClosingScan.outside depth)
      (fun text escape => { depth := depth, inside := text, quoted := some (quote, escape) }) where
  steps text before rest ch escape := by
    cases hstep : literalStep '\\' quote escape ch
    all_goals simp [ClosingScan.step, nextQuoted, hstep, ClosingScan.outside]
  outside text := rfl
  within text escape := rfl

theorem ClosingScan.readsRaw (depth : Nat) :
    ReadsRaw ClosingScan.step ClosingScan.insideLiteral
      (fun delimiter n text => { depth := depth, rawString := some delimiter, jump := n, inside := text })
      (fun n text => { depth := depth, jump := n, inside := text }) where
  jumps delimiter n text before ch rest := by simp [ClosingScan.step]
  stays delimiter text before ch rest h := by
    rw [ClosingScan.step, if_neg (Nat.lt_irrefl 0)]
    simp only [if_neg h]
  closes delimiter text before rest h := by
    rw [ClosingScan.step, if_neg (Nat.lt_irrefl 0)]
    simp only [h, and_self, ↓reduceIte]
  ends n text before ch rest := by simp [ClosingScan.step]
  within delimiter n text := rfl
  ending n text := by simp [insideLiteral]

theorem ClosingScan.marked_raw {start delimiter content : List Char} (h : (Token.raw start delimiter content).Spelled)
    (depth : Nat) (text before rest : List Char) :
    Marked ClosingScan.step ClosingScan.insideLiteral (ClosingScan.outside depth text) before
      (Token.raw start delimiter content).text rest (Token.raw start delimiter content).places
      (ClosingScan.outside depth (text ++ (Token.raw start delimiter content).text)) := by
  obtain ⟨hstart, hdelimiter, hcontent⟩ := h
  have hne : ∀ start ∈ rawStringPrefixes, start ≠ [] := by decide
  obtain ⟨ch, start, rfl⟩ := List.exists_cons_of_ne_nil (hne _ hstart)
  have htext : (Token.raw (ch :: start) delimiter content).text =
      ch :: (start ++ (delimiter ++ ['(']) ++ (content ++ ((')' :: delimiter) ++ ['"']))) := by simp
  have hplaces : (Token.raw (ch :: start) delimiter content).places = List.replicate
      ((start ++ (delimiter ++ ['('])).length + content.length + delimiter.length + 2) true ++ [false] := by
    rw [Token.places, htext]
    congr 2
    simp
    omega
  have hfirst : ClosingScan.step (ClosingScan.outside depth text) before ch
      (start ++ (delimiter ++ ['(']) ++ (content ++ ((')' :: delimiter) ++ ['"']) ++ rest)) =
      .ok { depth := depth, rawString := some delimiter, jump := (start ++ (delimiter ++ ['('])).length,
            inside := text ++ [ch] } := by
    have hdetect := detectRawStringStart_raw hstart hdelimiter (content ++ ((')' :: delimiter) ++ ['"']) ++ rest)
    simp only [List.append_assoc, List.cons_append, List.nil_append] at hdetect ⊢
    simp only [ClosingScan.step, ClosingScan.outside, Nat.lt_irrefl, ↓reduceIte, hdetect, List.length_cons]
    congr 2
    simp
    omega
  rw [htext, hplaces]
  exact (ClosingScan.readsRaw depth).marked_raw hcontent hfirst

theorem ne_bracket {ch : Char} (h : isOpening ch = false ∧ isClosing ch = false) : ch ≠ '(' ∧ ch ≠ ')' := by
  refine ⟨?_, ?_⟩
  · rintro rfl
    cases h.1
  · rintro rfl
    cases h.2

theorem detectRawStringStart_bracket {ch : Char} (h : isOpening ch = true ∨ isClosing ch = true) (rest : List Char) :
    detectRawStringStart (ch :: rest) = none := by
  refine detectRawStringStart_none ?_ rest
  intro hmem
  simp only [List.mem_cons, List.not_mem_nil, or_false] at hmem
  obtain rfl | rfl | rfl | rfl := hmem
  all_goals exact absurd h (by decide)

theorem ClosingScan.marked_token {t : Token} (hspelled : t.Spelled) {depth depth' : Nat}
    (hround : t.round depth = some depth') {before rest : List Char}
    (hfound : t.NoRawStart rest ∧ t.ReadsApostrophe before rest) (text : List Char) :
    Marked ClosingScan.step ClosingScan.insideLiteral (ClosingScan.outside depth text) before t.text rest t.places
      (ClosingScan.outside depth' (text ++ t.text)) := by
  cases t with
  | code ch =>
    cases hround
    obtain ⟨hstring, hchar, hbracket⟩ := hspelled
    obtain ⟨hopen, hclose⟩ := ne_bracket hbracket
    have hnone : detectRawStringStart (ch :: rest) = none := hfound.1
    refine .single ?_ rfl
    simp [ClosingScan.step, ClosingScan.outside, hnone, hstring, hchar, hopen, hclose]
  | separator =>
    cases hround
    have henter : shouldEnterCharLiteral before rest = false := hfound.2
    refine .single ?_ rfl
    simp [ClosingScan.step, ClosingScan.outside, detectRawStringStart_none, henter]
  | opening ch =>
    have hnone := detectRawStringStart_bracket (.inl hspelled) rest
    have hquotes : ch ≠ '"' ∧ ch ≠ '\'' ∧ ch ≠ ')' := by
      refine ⟨?_, ?_, ?_⟩
      all_goals
        rintro rfl
        cases hspelled
    cases hround
    refine .single ?_ rfl
    by_cases hch : ch = '('
    · simp [ClosingScan.step, ClosingScan.outside, hch, detectRawStringStart_none]
    · simp [ClosingScan.step, ClosingScan.outside, hnone, hquotes, hch]
  | closing ch =>
    have hnone := detectRawStringStart_bracket (.inr hspelled) rest
    have hquotes : ch ≠ '"' ∧ ch ≠ '\'' ∧ ch ≠ '(' := by
      refine ⟨?_, ?_, ?_⟩
      all_goals
        rintro rfl
        cases hspelled
    rw [Token.round] at hround
    split at hround
    · rename_i hch
      subst hch
      split at hround
      · cases hround
      · rename_i hdepth
        cases hround
        refine .single ?_ rfl
        simp [ClosingScan.step, ClosingScan.outside, detectRawStringStart_none, show depth ≠ 1 from by omega]
    · rename_i hch
      cases hround
      refine .single ?_ rfl
      simp [ClosingScan.step, ClosingScan.outside, hnone, hquotes, hch]
  | string body =>
    cases hround
    have hopen : ClosingScan.step (ClosingScan.outside depth text) before '"' (body ++ ['"'] ++ rest) =
        .ok { depth := depth, inside := text ++ ['"'], quoted := some ('"', false) } := by
      simp [ClosingScan.step, ClosingScan.outside, detectRawStringStart_none]
    have hbody := (ClosingScan.marksLiterals depth '"').marked (by decide) hspelled (text ++ ['"']) ('"' :: before) rest
    have hall := Marked.step hopen hbody
    simpa [Token.places, Token.text, ClosingScan.insideLiteral, List.replicate_succ] using hall
  | character body =>
    cases hround
    have henter : shouldEnterCharLiteral before (body ++ '\'' :: rest) = true := hfound.2
    have hopen : ClosingScan.step (ClosingScan.outside depth text) before '\'' (body ++ ['\''] ++ rest) =
        .ok { depth := depth, inside := text ++ ['\''], quoted := some ('\'', false) } := by
      simp [ClosingScan.step, ClosingScan.outside, detectRawStringStart_none, henter]
    have hbody := (ClosingScan.marksLiterals depth '\'').marked (by decide) hspelled (text ++ ['\'']) ('\'' :: before) rest
    have hall := Marked.step hopen hbody
    simpa [Token.places, Token.text, ClosingScan.insideLiteral, List.replicate_succ] using hall
  | raw start delimiter content =>
    cases hround
    exact ClosingScan.marked_raw hspelled depth text before rest

/-- A token that is taken for another is marked otherwise at its first byte. -/
theorem ClosingScan.marks_token_ne {t : Token} {before rest : List Char}
    (hfound : ¬(t.NoRawStart rest ∧ t.ReadsApostrophe before rest)) (depth : Nat) (text : List Char) (tail : List Bool) :
    marks ClosingScan.step ClosingScan.insideLiteral (ClosingScan.outside depth text) before (t.text ++ rest) ≠
      t.places ++ tail := by
  cases t with
  | code ch =>
    cases hdetect : detectRawStringStart (ch :: rest) with
    | none => exact absurd ⟨hdetect, trivial⟩ hfound
    | some start =>
      have hstep : ClosingScan.step (ClosingScan.outside depth text) before ch rest =
          .ok { depth := depth, rawString := some start.delimiter, jump := start.prefixLength - 1,
                inside := text ++ [ch] } := by
        simp [ClosingScan.step, ClosingScan.outside, hdetect]
      exact marks_ne hstep (by simp [ClosingScan.insideLiteral])
  | separator =>
    have henter : shouldEnterCharLiteral before rest = true := by
      rw [← Bool.not_eq_false]
      exact fun henter => hfound ⟨trivial, henter⟩
    have hstep : ClosingScan.step (ClosingScan.outside depth text) before '\'' rest =
        .ok { depth := depth, inside := text ++ ['\''], quoted := some ('\'', false) } := by
      simp [ClosingScan.step, ClosingScan.outside, detectRawStringStart_none, henter]
    exact marks_ne hstep (by simp [ClosingScan.insideLiteral])
  | character body =>
    have henter : shouldEnterCharLiteral before (body ++ '\'' :: rest) = false := by
      rw [← Bool.not_eq_true]
      exact fun henter => hfound ⟨trivial, henter⟩
    have hstep : ClosingScan.step (ClosingScan.outside depth text) before '\'' (body ++ ['\''] ++ rest) =
        .ok (ClosingScan.outside depth (text ++ ['\''])) := by
      simp [ClosingScan.step, ClosingScan.outside, detectRawStringStart_none, henter]
    have hplaces : (Token.character body).places ++ tail = true :: (List.replicate body.length true ++ [false] ++ tail) := by
      simp [Token.places, Token.text, List.replicate_succ]
    rw [hplaces]
    exact marks_ne hstep (by simp [ClosingScan.insideLiteral, ClosingScan.outside])
  | _ => exact absurd ⟨trivial, trivial⟩ hfound

theorem ClosingScan.marked_tokens {ts : List Token} (hspelled : ∀ t ∈ ts, t.Spelled) {depth depth' : Nat}
    (hrounds : roundsAfter depth ts = some depth') {before rest : List Char} (hfound : Found rest before ts)
    (text : List Char) :
    Marked ClosingScan.step ClosingScan.insideLiteral (ClosingScan.outside depth text) before (tokensText ts) rest
      (ts.flatMap Token.places) (ClosingScan.outside depth' (text ++ tokensText ts)) := by
  induction ts generalizing depth before text with
  | nil =>
    cases hrounds
    simpa using Marked.done
  | cons t ts ih =>
    obtain ⟨ht, hts⟩ := List.forall_mem_cons.mp hspelled
    obtain ⟨next, hnext, hrounds⟩ := Option.bind_eq_some_iff.mp hrounds
    have htoken := ClosingScan.marked_token ht hnext hfound.1 text
    simpa using htoken.append (ih hts hrounds hfound.2 (text ++ t.text))

theorem ClosingScan.found_of_marks {ts : List Token} (hspelled : ∀ t ∈ ts, t.Spelled) {depth depth' : Nat}
    (hrounds : roundsAfter depth ts = some depth') {before rest text : List Char} {tail : List Bool}
    (hmarks : marks ClosingScan.step ClosingScan.insideLiteral (ClosingScan.outside depth text) before
      (tokensText ts ++ rest) = ts.flatMap Token.places ++ tail) : Found rest before ts := by
  induction ts generalizing depth before text with
  | nil => trivial
  | cons t ts ih =>
    obtain ⟨ht, hts⟩ := List.forall_mem_cons.mp hspelled
    obtain ⟨next, hnext, hrounds⟩ := Option.bind_eq_some_iff.mp hrounds
    rw [tokensText_cons, List.append_assoc, List.flatMap_cons, List.append_assoc] at hmarks
    have hfound : t.NoRawStart (tokensText ts ++ rest) ∧ t.ReadsApostrophe before (tokensText ts ++ rest) := by
      by_contra hfound
      exact ClosingScan.marks_token_ne hfound depth text _ hmarks
    rw [(ClosingScan.marked_token ht hnext hfound text).marks_append] at hmarks
    have hmore := List.append_cancel_left hmarks
    exact ⟨hfound, ih hts hrounds hmore⟩

end Gentest.Codegen
