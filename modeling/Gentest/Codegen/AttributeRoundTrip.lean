import Gentest.Codegen.AttributeText
import Mathlib.Data.Bool.AllAny

/-!
# Reading back what was written

Attributes written with escaped and quoted arguments are read back as they were,
whatever bytes the arguments hold. The scanners agree on a literal: each enters it
at its quote and leaves it at the closing one, and outside of literals the text
holds nothing else that a scanner reacts to.
-/

namespace Gentest.Codegen

open Scanner

-- ---------------------------------------------------------------------------
-- The written text
-- ---------------------------------------------------------------------------

def renderArgument (value : List Char) : List Char := '"' :: escapeString value ++ ['"']

def joinComma (texts : List (List Char)) : List Char := [',', ' '].intercalate texts

def renderArguments (arguments : List (List Char)) : List Char :=
  if arguments = [] then [] else '(' :: joinComma (arguments.map renderArgument) ++ [')']

/-- One attribute behind a qualifier, `gentest::` or nothing. -/
def renderAttribute (qualifier : List Char) (a : ParsedAttribute) : List Char :=
  qualifier ++ a.name ++ renderArguments a.arguments

def renderAttributes (qualifier : List Char) (attributes : List ParsedAttribute) : List Char :=
  joinComma (attributes.map (renderAttribute qualifier))

def gentestQualifier : List Char := gentestName ++ [':', ':']

def brackets (inner : List Char) : List Char := ['[', '['] ++ inner ++ [']', ']']

/-- Written as `[[using gentest: a, b]]`. -/
def usingSpelling (attributes : List ParsedAttribute) : List Char :=
  brackets (['u', 's', 'i', 'n', 'g', ' '] ++ gentestName ++ [':', ' '] ++ renderAttributes [] attributes)

/-- Written as `[[gentest::a, gentest::b]]`. -/
def scopedSpelling (attributes : List ParsedAttribute) : List Char :=
  brackets (renderAttributes gentestQualifier attributes)

/-- An identifier as the scanners read one. -/
def isIdentifier : List Char → Bool
  | [] => false
  | ch :: rest => isNameStart ch && rest.all isIdentifierChar

/-- The namespace and the attributes, if the text is accepted. -/
def readAttributes (attributeText : List Char) : Option (List Char × List ParsedAttribute) :=
  (parseAttributeNamespaceAndPayload attributeText).1.map fun payload =>
    (payload.1, parseAttributeList payload.2)

-- ---------------------------------------------------------------------------
-- Escapes
-- ---------------------------------------------------------------------------

theorem escapeChar_cases (ch : Char) :
    (∃ letter, escapeChar ch = ['\\', letter] ∧ decodeEscape letter = ch) ∨
      (escapeChar ch = [ch] ∧ ch ≠ '\\' ∧ ch ≠ '"') := by
  unfold escapeChar
  split
  · exact .inl ⟨_, rfl, rfl⟩
  · exact .inl ⟨_, rfl, rfl⟩
  · exact .inl ⟨_, rfl, rfl⟩
  · exact .inl ⟨_, rfl, rfl⟩
  · exact .inl ⟨_, rfl, rfl⟩
  · exact .inr ⟨rfl, by assumption, by assumption⟩

theorem staysInside_escapeString (value : List Char) : StaysInside '\\' '"' false (escapeString value) := by
  induction value with
  | nil => rfl
  | cons ch value ih =>
    refine StaysInside.append ?_ ih
    obtain ⟨letter, hch, -⟩ | ⟨hch, hmark, hquote⟩ := escapeChar_cases ch
    · rw [hch]
      exact ⟨true, rfl, false, rfl, rfl⟩
    · rw [hch]
      exact ⟨false, by simp [literalStep, hmark, hquote], rfl⟩

theorem decodeEscapes_escapeString (value : List Char) : decodeEscapes false (escapeString value) = value := by
  induction value with
  | nil => rfl
  | cons ch value ih =>
    have hcons : escapeString (ch :: value) = escapeChar ch ++ escapeString value := rfl
    obtain ⟨letter, hch, hletter⟩ | ⟨hch, hmark, -⟩ := escapeChar_cases ch
    · simp [hcons, hch, decodeEscapes, hletter, ih]
    · simp [hcons, hch, decodeEscapes, hmark, ih]

-- ---------------------------------------------------------------------------
-- Spaces and names
-- ---------------------------------------------------------------------------

theorem isSpace_of_isIdentifierChar {ch : Char} (h : isIdentifierChar ch = true) : isSpace ch = false := by
  have hspaces : ∀ ch ∈ [' ', '\t', '\n', '\x0b', '\x0c', '\r'], isIdentifierChar ch = false :=
    List.all_iff_forall_prop.mp (by decide)
  rw [Bool.eq_false_iff]
  intro hspace
  rw [hspaces ch (isSpace_cases hspace)] at h
  cases h

theorem isIdentifierChar_of_isNameStart {ch : Char} (h : isNameStart ch = true) : isIdentifierChar ch = true := by
  unfold isNameStart at h
  unfold isIdentifierChar Char.isAlphanum
  grind

/-- Neither end is a space. -/
def Tight (text : List Char) : Prop :=
  (∀ ch, text.head? = some ch → isSpace ch = false) ∧ ∀ ch, text.getLast? = some ch → isSpace ch = false

theorem dropWhile_head {text : List Char} {p : Char → Bool} (h : ∀ ch, text.head? = some ch → p ch = false) :
    text.dropWhile p = text := by
  cases text with
  | nil => rfl
  | cons ch text => simp [h ch rfl]

theorem Tight.trimView {text : List Char} (h : Tight text) : trimView text = text := by
  obtain ⟨hhead, hlast⟩ := h
  have hback : text.reverse.dropWhile isSpace = text.reverse :=
    dropWhile_head fun ch hch => hlast ch (by simpa using hch)
  rw [Codegen.trimView, dropWhile_head hhead, hback, List.reverse_reverse]

theorem trimView_space (text : List Char) : trimView (' ' :: text) = trimView text := rfl

theorem isIdentifier_all {name : List Char} (h : isIdentifier name = true) :
    ∀ ch ∈ name, isIdentifierChar ch = true := by
  cases name with
  | nil => cases h
  | cons ch rest =>
    simp only [isIdentifier, Bool.and_eq_true, List.all_eq_true] at h
    exact List.forall_mem_cons.mpr ⟨isIdentifierChar_of_isNameStart h.1, h.2⟩

/-- What follows does not lengthen a name. -/
def EndsName (rest : List Char) : Prop := ∀ ch, rest.head? = some ch → isIdentifierChar ch = false

theorem leadingName_append {name rest : List Char} (h : isIdentifier name = true) (hrest : EndsName rest) :
    leadingName (name ++ rest) = some (name, rest) := by
  cases name with
  | nil => cases h
  | cons ch name =>
    simp only [isIdentifier, Bool.and_eq_true, List.all_eq_true] at h
    have htake : rest.takeWhile isIdentifierChar = [] := by
      cases rest with
      | nil => rfl
      | cons next rest => simp [hrest next rfl]
    simp [leadingName, h.1, List.takeWhile_append_of_pos h.2, List.dropWhile_append_of_pos h.2, htake,
      dropWhile_head hrest]

theorem tight_cons_append {ch last : Char} {middle : List Char} (hch : isSpace ch = false)
    (hlast : isSpace last = false) : Tight (ch :: middle ++ [last]) := by
  refine ⟨?_, ?_⟩
  · rintro c hc
    cases hc
    exact hch
  · intro c hc
    rw [List.getLast?_append_of_ne_nil _ (by simp)] at hc
    cases hc
    exact hlast

theorem tight_renderArgument (value : List Char) : Tight (renderArgument value) :=
  tight_cons_append (by decide) (by decide)

theorem unquote_quoted (body : List Char) : unquote ('"' :: body ++ ['"']) = decodeEscapes false body := by
  have htight : Tight ('"' :: body ++ ['"']) := tight_cons_append (by decide) (by decide)
  have hquotes : ('"' :: body ++ ['"']).head? = some '"' ∧ ('"' :: body ++ ['"']).getLast? = some '"' :=
    ⟨rfl, List.getLast?_concat ..⟩
  rw [unquote, htight.trimView, if_pos ⟨by simp, hquotes⟩]
  simp

theorem unquote_renderArgument (value : List Char) : unquote (renderArgument value) = value :=
  (unquote_quoted _).trans (decodeEscapes_escapeString value)

-- ---------------------------------------------------------------------------
-- Arguments
-- ---------------------------------------------------------------------------

theorem reads_argument {σ ρ : Type*} {step : σ → List Char → Char → List Char → Except ρ σ}
    {code : List Char → σ} {inside : List Char → Bool → σ} (h : ReadsLiterals step '\\' '"' code inside)
    (value text before rest : List Char) :
    Reads step (code text) before (renderArgument value) rest (code (text ++ renderArgument value)) :=
  h.reads_literal (staysInside_escapeString value) text before rest

/-- Arguments are read as they are by a scanner that reads literals and keeps
commas and spaces. -/
theorem reads_joined {σ ρ : Type*} {step : σ → List Char → Char → List Char → Except ρ σ}
    {code : List Char → σ} {inside : List Char → Bool → σ} (h : ReadsLiterals step '\\' '"' code inside)
    (hsep : ∀ ch ∈ [',', ' '], ∀ text before rest, step (code text) before ch rest = .ok (code (text ++ [ch])))
    (arguments : List (List Char)) (text before rest : List Char) :
    Reads step (code text) before (joinComma (arguments.map renderArgument)) rest
      (code (text ++ joinComma (arguments.map renderArgument))) := by
  induction arguments generalizing text before with
  | nil => simpa [joinComma] using Reads.done
  | cons value arguments ih =>
    have hvalue := reads_argument h value
    cases arguments with
    | nil => simpa [joinComma] using hvalue text before rest
    | cons next arguments =>
      have hcomma : ∀ text before rest, Reads step (code text) before [',', ' '] rest (code (text ++ [',', ' '])) := by
        intro text before rest
        refine reads_plain (fun done ch left hfront text before => ?_) text before
        exact hsep ch (by simp [hfront]) text before _
      have hall := (hvalue text before _).append fun before =>
        (hcomma _ before _).append fun before => ih _ before
      simpa [joinComma] using hall

theorem detectRawStringStart_none {ch : Char} (h : ch ∉ ['R', 'u', 'U', 'L']) (rest : List Char) :
    detectRawStringStart (ch :: rest) = none := by
  simp only [List.mem_cons, List.not_mem_nil, or_false, not_or] at h
  simp [detectRawStringStart, rawStringPrefixes, List.isPrefixOf, Ne.symm h.1, Ne.symm h.2.1, Ne.symm h.2.2.1,
    Ne.symm h.2.2.2]

theorem ClosingScan.readsLiterals :
    ReadsLiterals ClosingScan.step '\\' '"' (fun text => { inside := text })
      (fun text escape => { inside := text, quoted := some ('"', escape) }) where
  opens text before rest := by
    simp [ClosingScan.step, detectRawStringStart_none]
  stays text before rest ch escape next hnext := by
    simp [ClosingScan.step, nextQuoted, hnext]
  closes text before rest := by
    simp [ClosingScan.step, nextQuoted, literalStep]

theorem scan_closing (arguments : List (List Char)) (before rest : List Char) :
    scan ClosingScan.step {} before (joinComma (arguments.map renderArgument) ++ ')' :: rest) =
      .error (joinComma (arguments.map renderArgument), rest) := by
  have hsep : ∀ ch ∈ [',', ' '], ∀ text before rest,
      ClosingScan.step { inside := text } before ch rest = .ok { inside := text ++ [ch] } := by
    intro ch hch text before rest
    simp only [List.mem_cons, List.not_mem_nil, or_false] at hch
    obtain rfl | rfl := hch
    · simp [ClosingScan.step, detectRawStringStart_none]
    · simp [ClosingScan.step, detectRawStringStart_none]
  have hjoined := reads_joined ClosingScan.readsLiterals hsep arguments [] before (')' :: rest)
  rw [hjoined.scan_append]
  simp [scan, ClosingScan.step, detectRawStringStart_none]

theorem SplitScan.readsLiterals (parts : List (List Char)) :
    ReadsLiterals SplitScan.step '\\' '"' (fun text => { parts := parts, current := text })
      (fun text escape => { parts := parts, current := text, quoted := some ('"', escape) }) where
  opens text before rest := by
    simp [SplitScan.step]
  stays text before rest ch escape next hnext := by
    simp [SplitScan.step, nextQuoted, hnext]
  closes text before rest := by
    simp [SplitScan.step, nextQuoted, literalStep]

theorem SplitScan.pushToken_argument (parts : List (List Char)) {lead : List Char} (hlead : lead = [] ∨ lead = [' '])
    (value : List Char) :
    SplitScan.pushToken { parts := parts, current := lead ++ renderArgument value } =
      { parts := parts ++ [value] } := by
  have htrim : trimView (lead ++ renderArgument value) = renderArgument value := by
    obtain rfl | rfl := hlead
    · exact (tight_renderArgument value).trimView
    · exact (tight_renderArgument value).trimView
  have hne : renderArgument value ≠ [] := List.cons_ne_nil _ _
  simp [SplitScan.pushToken, htrim, hne, unquote_renderArgument]

theorem SplitScan.reads_arguments (parts : List (List Char)) {lead : List Char} (hlead : lead = [] ∨ lead = [' '])
    (value : List Char) (arguments : List (List Char)) :
    ∃ st : SplitScan, st.pushToken.parts = parts ++ value :: arguments ∧
      ∀ before, Reads SplitScan.step { parts := parts, current := lead } before
        (joinComma ((value :: arguments).map renderArgument)) [] st := by
  have hvalue := reads_argument (SplitScan.readsLiterals parts) value lead
  have hpush := SplitScan.pushToken_argument parts hlead value
  induction arguments generalizing parts lead value with
  | nil =>
    refine ⟨{ parts := parts, current := lead ++ renderArgument value }, by rw [hpush], fun before => ?_⟩
    simpa [joinComma] using hvalue before []
  | cons next arguments ih =>
    obtain ⟨st, hparts, hreads⟩ := ih (parts ++ [value]) (.inr rfl) next
      (reads_argument (SplitScan.readsLiterals _) next [' ']) (SplitScan.pushToken_argument _ (.inr rfl) next)
    refine ⟨st, by simpa using hparts, fun before => ?_⟩
    have hcomma : ∀ before rest,
        SplitScan.step { parts := parts, current := lead ++ renderArgument value } before ',' rest =
          .ok { parts := parts ++ [value] } := by
      intro before rest
      rw [← hpush]
      simp [SplitScan.step, isOpening, isClosing]
    have hspace : ∀ before rest, SplitScan.step { parts := parts ++ [value] } before ' ' rest =
        .ok { parts := parts ++ [value], current := [' '] } := by
      intro before rest
      simp [SplitScan.step, isOpening, isClosing]
    have hall := (hvalue before _).append fun before =>
      Reads.step (hcomma before _) (.step (hspace _ _) (hreads _))
    simpa [joinComma] using hall

theorem splitArguments_render (value : List Char) (arguments : List (List Char)) :
    splitArguments (joinComma ((value :: arguments).map renderArgument)) = value :: arguments := by
  obtain ⟨st, hparts, hreads⟩ := SplitScan.reads_arguments [] (.inl rfl) value arguments
  rw [splitArguments, (hreads []).scan_all]
  simpa using hparts

theorem readArguments_render (list : List Char) (arguments : List (List Char)) {rest : List Char}
    (hrest : rest.head? ≠ some '(') :
    readArguments list (renderArguments arguments ++ rest) = (arguments, rest) := by
  cases arguments with
  | nil =>
    simp only [renderArguments, ↓reduceIte, List.nil_append]
    unfold readArguments
    split
    · exact absurd rfl hrest
    · rfl
  | cons value arguments =>
    have hscan := scan_closing (value :: arguments)
    simp only [renderArguments, reduceCtorEq, ↓reduceIte, List.cons_append, List.append_assoc, List.nil_append,
      readArguments, hscan, splitArguments_render]

-- ---------------------------------------------------------------------------
-- The list of attributes
-- ---------------------------------------------------------------------------

/-- What stands behind an attribute: the end or a comma. -/
def AfterAttribute (rest : List Char) : Prop := rest = [] ∨ ∃ more, rest = ',' :: more

theorem arguments_head (arguments : List (List Char)) {rest : List Char} (hrest : AfterAttribute rest) :
    ∀ ch, (renderArguments arguments ++ rest).head? = some ch → ch = '(' ∨ ch = ',' := by
  intro ch hch
  cases arguments with
  | nil =>
    obtain rfl | ⟨more, rfl⟩ := hrest
    · cases hch
    · cases hch
      exact .inr rfl
  | cons value arguments =>
    cases hch
    exact .inl rfl

theorem endsName_arguments (arguments : List (List Char)) {rest : List Char} (hrest : AfterAttribute rest) :
    EndsName (renderArguments arguments ++ rest) := by
  intro ch hch
  obtain rfl | rfl := arguments_head arguments hrest ch hch
  · decide
  · decide

theorem readScopes_stop (rounds : Nat) (name : List Char) {rest : List Char}
    (hrest : ∀ ch, rest.head? = some ch → ch = '(' ∨ ch = ',') : readScopes rounds name rest = (name, rest) := by
  have hspace : rest.dropWhile isSpace = rest := dropWhile_head fun ch hch => by
    obtain rfl | rfl := hrest ch hch
    · decide
    · decide
  cases rounds with
  | zero => rfl
  | succ rounds =>
    rw [readScopes, hspace]
    split
    · obtain h | h := hrest ':' rfl
      · cases h
      · cases h
    · rfl

theorem readScopes_gentest {name rest : List Char} (rounds : Nat) (hname : isIdentifier name = true)
    (hends : EndsName rest) (hrest : ∀ ch, rest.head? = some ch → ch = '(' ∨ ch = ',') :
    readScopes (rounds + 1) gentestName (':' :: ':' :: (name ++ rest)) = (name, rest) := by
  have hspace : (name ++ rest).dropWhile isSpace = name ++ rest := by
    obtain _ | ⟨ch, name⟩ := name
    · cases hname
    · refine dropWhile_head fun c hc => ?_
      cases hc
      exact isSpace_of_isIdentifierChar (isIdentifier_all hname ch (List.mem_cons_self ..))
  have hcolon : isSpace ':' = false := by decide
  simp only [readScopes, List.dropWhile_cons, hcolon, Bool.false_eq_true, ↓reduceIte, hspace,
    leadingName_append hname hends]
  exact readScopes_stop rounds name hrest

theorem read_name {qualifier : List Char} (hq : qualifier = [] ∨ qualifier = gentestQualifier) {name rest : List Char}
    (hname : isIdentifier name = true) (hends : EndsName rest)
    (hrest : ∀ ch, rest.head? = some ch → ch = '(' ∨ ch = ',') :
    ∃ first left, leadingName (qualifier ++ name ++ rest) = some (first, left) ∧
      readScopes left.length first left = (name, rest) := by
  obtain rfl | rfl := hq
  · exact ⟨name, rest, leadingName_append hname hends, readScopes_stop _ name hrest⟩
  · refine ⟨gentestName, ':' :: ':' :: (name ++ rest), ?_, readScopes_gentest _ hname hends hrest⟩
    have hgentest : isIdentifier gentestName = true := by decide
    have hscope : EndsName (':' :: ':' :: (name ++ rest)) := by
      rintro ch hch
      cases hch
      decide
    simpa [gentestQualifier] using leadingName_append hgentest hscope

theorem renderAttribute_head {qualifier : List Char} (hq : qualifier = [] ∨ qualifier = gentestQualifier)
    {a : ParsedAttribute} (ha : isIdentifier a.name = true) :
    ∃ ch more, renderAttribute qualifier a = ch :: more ∧ isIdentifierChar ch = true := by
  obtain rfl | rfl := hq
  · obtain ⟨_ | ⟨ch, name⟩, arguments⟩ := a
    · cases ha
    · exact ⟨ch, _, rfl, isIdentifier_all ha ch (List.mem_cons_self ..)⟩
  · exact ⟨'g', _, rfl, by decide⟩

theorem parseAttributes_step (list : List Char) {qualifier : List Char}
    (hq : qualifier = [] ∨ qualifier = gentestQualifier) {a : ParsedAttribute} (ha : isIdentifier a.name = true)
    {lead rest : List Char} (hlead : lead = [] ∨ lead = [' ']) (hrest : AfterAttribute rest) (rounds : Nat) :
    parseAttributes list (rounds + 1) (lead ++ (renderAttribute qualifier a ++ rest)) =
      a :: parseAttributes list rounds (skipComma rest) := by
  have hends := endsName_arguments a.arguments hrest
  obtain ⟨first, left, hfirst, hscopes⟩ := read_name hq ha hends (arguments_head a.arguments hrest)
  obtain ⟨ch, more, htext, hch⟩ := renderAttribute_head hq ha
  have hspace : (lead ++ (renderAttribute qualifier a ++ rest)).dropWhile isSpace = ch :: (more ++ rest) := by
    obtain rfl | rfl := hlead
    · simp [htext, isSpace_of_isIdentifierChar hch]
    · simp [htext, isSpace_of_isIdentifierChar hch, (by decide : isSpace ' ' = true)]
  have hleading : leadingName (ch :: (more ++ rest)) = some (first, left) := by
    rw [← hfirst, ← List.cons_append, ← htext, renderAttribute]
    simp only [List.append_assoc]
  have harguments : (renderArguments a.arguments ++ rest).dropWhile isSpace = renderArguments a.arguments ++ rest :=
    dropWhile_head fun c hc => by
      obtain rfl | rfl := arguments_head a.arguments hrest c hc
      · decide
      · decide
  have hparen : rest.head? ≠ some '(' := by
    obtain rfl | ⟨more, rfl⟩ := hrest
    · intro h
      cases h
    · intro h
      cases h
  have hbehind : rest.dropWhile isSpace = rest := by
    obtain rfl | ⟨more, rfl⟩ := hrest
    · rfl
    · rfl
  simp only [parseAttributes, hspace, hleading, hscopes, harguments, readArguments_render list a.arguments hparen,
    hbehind]

theorem parseAttributes_all (list : List Char) {qualifier : List Char}
    (hq : qualifier = [] ∨ qualifier = gentestQualifier) (attributes : List ParsedAttribute)
    (hnames : ∀ a ∈ attributes, isIdentifier a.name = true) {lead : List Char} (hlead : lead = [] ∨ lead = [' '])
    {rounds : Nat} (hrounds : attributes.length ≤ rounds) :
    parseAttributes list rounds (lead ++ renderAttributes qualifier attributes) = attributes := by
  induction attributes generalizing lead rounds with
  | nil =>
    cases rounds with
    | zero => rfl
    | succ rounds =>
      obtain rfl | rfl := hlead
      · rfl
      · rfl
  | cons a attributes ih =>
    obtain ⟨ha, hnames⟩ := List.forall_mem_cons.mp hnames
    obtain ⟨rounds, rfl⟩ := Nat.exists_eq_add_of_lt (Nat.lt_of_lt_of_le (Nat.succ_pos _) hrounds)
    rw [Nat.zero_add]
    have hleft : attributes.length ≤ rounds := by simpa using hrounds
    cases attributes with
    | nil =>
      have hstep := parseAttributes_step list hq ha hlead (.inl rfl) rounds
      have hend : parseAttributes list rounds [] = [] := by simpa [renderAttributes, joinComma] using ih hnames (.inl rfl) hleft
      rw [List.append_nil] at hstep
      simpa [renderAttributes, joinComma, skipComma, hend] using hstep
    | cons next attributes =>
      have hafter : AfterAttribute ([',', ' '] ++ renderAttributes qualifier (next :: attributes)) := .inr ⟨_, rfl⟩
      have hstep := parseAttributes_step list hq ha hlead hafter rounds
      have hmore := ih hnames (.inr rfl) hleft
      simp only [renderAttributes, joinComma, List.map_cons, List.intercalate_cons_cons, List.append_assoc] at hstep hmore ⊢
      rw [hstep]
      exact congrArg (a :: ·) hmore

theorem length_renderAttributes {qualifier : List Char} (hq : qualifier = [] ∨ qualifier = gentestQualifier)
    (attributes : List ParsedAttribute) (hnames : ∀ a ∈ attributes, isIdentifier a.name = true) :
    attributes.length ≤ (renderAttributes qualifier attributes).length := by
  induction attributes with
  | nil => exact Nat.zero_le _
  | cons a attributes ih =>
    obtain ⟨ha, hnames⟩ := List.forall_mem_cons.mp hnames
    obtain ⟨ch, more, htext, -⟩ := renderAttribute_head hq ha
    have hleft := ih hnames
    cases attributes with
    | nil => simp [renderAttributes, joinComma, htext]
    | cons next attributes =>
      simp only [renderAttributes, joinComma, List.map_cons, List.intercalate_cons_cons, List.length_append, htext,
        List.length_cons] at hleft ⊢
      omega

theorem parseAttributeList_render {qualifier : List Char} (hq : qualifier = [] ∨ qualifier = gentestQualifier)
    (attributes : List ParsedAttribute) (hnames : ∀ a ∈ attributes, isIdentifier a.name = true) :
    parseAttributeList (renderAttributes qualifier attributes) = attributes :=
  parseAttributes_all _ hq attributes hnames (.inl rfl) (length_renderAttributes hq attributes hnames)

-- ---------------------------------------------------------------------------
-- The payload
-- ---------------------------------------------------------------------------

theorem tryStartRawString_none {ch : Char} {rest : List Char} (h : ch = 'R' → rest.head? ≠ some '"') :
    tryStartRawString (ch :: rest) = none := by
  unfold tryStartRawString
  split
  · rename_i heq
    cases heq
    exact absurd rfl (h rfl)
  · rfl

theorem PayloadScan.readsLiterals (candidates : List (List Char)) (depth : Nat) :
    ReadsLiterals PayloadScan.step '\\' '"'
      (fun text => { nestingDepth := depth, token := text, candidates := candidates })
      (fun text escape =>
        { nestingDepth := depth, token := text, candidates := candidates, quoted := some ('"', escape) }) where
  opens text before rest := by
    simp [PayloadScan.step, PayloadScan.codeStep, tryStartRawString_none]
  stays text before rest ch escape next hnext := by
    simp [PayloadScan.step, nextQuoted, hnext]
  closes text before rest := by
    simp [PayloadScan.step, nextQuoted, literalStep]

/-- A name and the marks between names and arguments are kept. -/
theorem PayloadScan.step_plain (candidates : List (List Char)) (depth : Nat) {ch : Char} {rest : List Char}
    (hch : isIdentifierChar ch = true ∨ ch = ':' ∨ ch = ' ' ∨ ch = ',' ∧ depth ≠ 0)
    (hrest : ch = 'R' → rest.head? ≠ some '"') (text before : List Char) :
    PayloadScan.step { nestingDepth := depth, token := text, candidates := candidates } before ch rest =
      .ok { nestingDepth := depth, token := text ++ [ch], candidates := candidates } := by
  have hmarks : ∀ mark ∈ ['/', '"', '\'', '(', '[', '{', ')', ']', '}'], ch ≠ mark := by
    have hnone : ∀ mark ∈ ['/', '"', '\'', '(', '[', '{', ')', ']', '}'],
        isIdentifierChar mark = false ∧ mark ≠ ':' ∧ mark ≠ ' ' ∧ mark ≠ ',' :=
      List.all_iff_forall_prop.mp (by decide)
    rintro mark hmark rfl
    obtain ⟨hidentifier, hcolon, hspace, hcomma⟩ := hnone ch hmark
    obtain h | h | h | h := hch
    · exact Bool.false_ne_true (hidentifier.symm.trans h)
    · exact hcolon h
    · exact hspace h
    · exact hcomma h.1
  have hcomma : ¬(ch = ',' ∧ depth = 0) := by
    rintro ⟨rfl, rfl⟩
    exact absurd hch (by decide)
  simp only [List.mem_cons, List.not_mem_nil, or_false, forall_eq_or_imp, forall_eq] at hmarks
  simp [PayloadScan.step, PayloadScan.codeStep, tryStartRawString_none hrest, isOpening, isClosing, hmarks, hcomma]

theorem PayloadScan.reads_name (candidates : List (List Char)) {name rest : List Char}
    (hname : isIdentifier name = true) (hrest : rest.head? ≠ some '"') (text before : List Char) :
    Reads PayloadScan.step { token := text, candidates := candidates } before (gentestQualifier ++ name) rest
      { token := text ++ (gentestQualifier ++ name), candidates := candidates } := by
  have hall : ∀ ch ∈ gentestQualifier ++ name, isIdentifierChar ch = true ∨ ch = ':' := by
    have hqualifier : ∀ ch ∈ gentestQualifier, isIdentifierChar ch = true ∨ ch = ':' :=
      List.all_iff_forall_prop.mp (by decide)
    intro ch hch
    obtain h | h := List.mem_append.mp hch
    · exact hqualifier ch h
    · exact .inl (isIdentifier_all hname ch h)
  have hplain : ∀ done ch left, gentestQualifier ++ name = done ++ ch :: left → ∀ text before,
      PayloadScan.step { token := text, candidates := candidates } before ch (left ++ rest) =
        .ok { token := text ++ [ch], candidates := candidates } := by
    intro done ch left hfront text before
    have hnext : (left ++ rest).head? ≠ some '"' := by
      cases left with
      | nil => exact hrest
      | cons next left =>
        intro h
        cases h
        have hquote := hall '"' (by simp [hfront])
        revert hquote
        decide
    have hch : isIdentifierChar ch = true ∨ ch = ':' := hall ch (by simp [hfront])
    exact PayloadScan.step_plain candidates 0 (hch.imp_right .inl) (fun _ => hnext) text before
  exact reads_plain hplain text before

theorem PayloadScan.reads_arguments (candidates : List (List Char)) (arguments : List (List Char))
    (text before rest : List Char) :
    Reads PayloadScan.step { token := text, candidates := candidates } before (renderArguments arguments) rest
      { token := text ++ renderArguments arguments, candidates := candidates } := by
  cases arguments with
  | nil => simpa [renderArguments] using Reads.done
  | cons value arguments =>
    have hopens : ∀ text before rest, PayloadScan.step { token := text, candidates := candidates } before '(' rest =
        .ok { nestingDepth := 1, token := text ++ ['('], candidates := candidates } := by
      intro text before rest
      simp [PayloadScan.step, PayloadScan.codeStep, tryStartRawString_none, isOpening]
    have hcloses : ∀ text before rest,
        PayloadScan.step { nestingDepth := 1, token := text, candidates := candidates } before ')' rest =
        .ok { token := text ++ [')'], candidates := candidates } := by
      intro text before rest
      simp [PayloadScan.step, PayloadScan.codeStep, tryStartRawString_none, isOpening, isClosing]
    have hsep : ∀ ch ∈ [',', ' '], ∀ text before rest,
        PayloadScan.step { nestingDepth := 1, token := text, candidates := candidates } before ch rest =
          .ok { nestingDepth := 1, token := text ++ [ch], candidates := candidates } := by
      intro ch hch text before rest
      simp only [List.mem_cons, List.not_mem_nil, or_false] at hch
      obtain rfl | rfl := hch
      · exact PayloadScan.step_plain candidates 1 (by simp) (by simp) text before
      · exact PayloadScan.step_plain candidates 1 (by simp) (by simp) text before
    have hjoined := reads_joined (PayloadScan.readsLiterals candidates 1) hsep (value :: arguments) (text ++ ['('])
      ('(' :: before) ([')'] ++ rest)
    have hall := hjoined.append fun before => Reads.single (hcloses _ before _)
    have hwhole := Reads.step (hopens text before _) hall
    simpa [renderArguments] using hwhole

/-- A whole attribute is kept, from a place outside of parentheses to one. -/
theorem PayloadScan.reads_attribute (candidates : List (List Char)) {a : ParsedAttribute}
    (ha : isIdentifier a.name = true) {rest : List Char} (hrest : AfterAttribute rest) (text before : List Char) :
    Reads PayloadScan.step { token := text, candidates := candidates } before
      (renderAttribute gentestQualifier a) rest
      { token := text ++ renderAttribute gentestQualifier a, candidates := candidates } := by
  have hquote : (renderArguments a.arguments ++ rest).head? ≠ some '"' := by
    intro h
    obtain h | h := arguments_head a.arguments hrest '"' h
    · cases h
    · cases h
  have hall := (PayloadScan.reads_name candidates ha hquote text before).append fun before =>
    PayloadScan.reads_arguments candidates a.arguments _ before rest
  simpa [renderAttribute] using hall

theorem tight_renderAttribute {qualifier : List Char} (hq : qualifier = [] ∨ qualifier = gentestQualifier)
    {a : ParsedAttribute} (ha : isIdentifier a.name = true) : Tight (renderAttribute qualifier a) := by
  refine ⟨?_, ?_⟩
  · obtain ⟨ch, more, htext, hch⟩ := renderAttribute_head hq ha
    rw [htext]
    rintro c hc
    cases hc
    exact isSpace_of_isIdentifierChar hch
  · intro last hlast
    obtain ⟨name, _ | ⟨value, arguments⟩⟩ := a
    · have hne : name ≠ [] := by
        rintro rfl
        cases ha
      rw [renderAttribute, renderArguments, if_pos rfl, List.append_nil, List.getLast?_append_of_ne_nil _ hne] at hlast
      exact isSpace_of_isIdentifierChar (isIdentifier_all ha last (List.mem_of_getLast? hlast))
    · rw [renderAttribute, renderArguments, if_neg (List.cons_ne_nil _ _), ← List.append_assoc,
        List.getLast?_concat] at hlast
      cases hlast
      decide

theorem PayloadScan.collect_attribute (candidates : List (List Char)) {a : ParsedAttribute}
    (ha : isIdentifier a.name = true) {lead : List Char} (hlead : lead = [] ∨ lead = [' ']) :
    PayloadScan.collectIfGentestRelated
        { token := lead ++ renderAttribute gentestQualifier a, candidates := candidates } =
      { candidates := candidates ++ [renderAttribute gentestQualifier a] } := by
  have htight := (tight_renderAttribute (.inr rfl) ha).trimView
  have htrim : trimView (lead ++ renderAttribute gentestQualifier a) = renderAttribute gentestQualifier a := by
    obtain rfl | rfl := hlead
    · exact htight
    · exact htight
  have hne : renderAttribute gentestQualifier a ≠ [] := List.cons_ne_nil _ _
  have hscoped : isGentestScopedAttributeToken (renderAttribute gentestQualifier a) = true := by
    have hgentest : isIdentifier gentestName = true := by decide
    have hends : EndsName (':' :: ':' :: (a.name ++ renderArguments a.arguments)) := by
      rintro ch hch
      cases hch
      decide
    have hleading := leadingName_append hgentest hends
    rw [isGentestScopedAttributeToken, htight]
    simp only [renderAttribute, gentestQualifier, List.append_assoc, List.cons_append, List.nil_append, hleading]
    rfl
  simp [PayloadScan.collectIfGentestRelated, htrim, hne, hscoped]

theorem PayloadScan.reads_attributes (candidates : List (List Char)) {lead : List Char}
    (hlead : lead = [] ∨ lead = [' ']) (a : ParsedAttribute) (attributes : List ParsedAttribute)
    (hnames : ∀ b ∈ a :: attributes, isIdentifier b.name = true) :
    ∃ st : PayloadScan,
      st.collectIfGentestRelated =
        { candidates := candidates ++ (a :: attributes).map (renderAttribute gentestQualifier) } ∧
      ∀ before, Reads PayloadScan.step { token := lead, candidates := candidates } before
        (renderAttributes gentestQualifier (a :: attributes)) [] st := by
  induction attributes generalizing candidates lead a with
  | nil =>
    have ha := hnames a (List.mem_cons_self ..)
    refine ⟨_, PayloadScan.collect_attribute candidates ha hlead, fun before => ?_⟩
    simpa [renderAttributes, joinComma] using PayloadScan.reads_attribute candidates ha (.inl rfl) lead before
  | cons next attributes ih =>
    obtain ⟨ha, hnames⟩ := List.forall_mem_cons.mp hnames
    have hcollect := PayloadScan.collect_attribute candidates ha hlead
    obtain ⟨st, hst, hreads⟩ := ih (candidates ++ [renderAttribute gentestQualifier a]) (.inr rfl) next hnames
    refine ⟨st, by simpa using hst, fun before => ?_⟩
    have hcomma : ∀ before rest,
        PayloadScan.step { token := lead ++ renderAttribute gentestQualifier a, candidates := candidates } before ','
          rest = .ok { candidates := candidates ++ [renderAttribute gentestQualifier a] } := by
      intro before rest
      rw [← hcollect]
      simp [PayloadScan.step, PayloadScan.codeStep, tryStartRawString_none, isOpening, isClosing]
    have hspace : ∀ before rest,
        PayloadScan.step { candidates := candidates ++ [renderAttribute gentestQualifier a] } before ' ' rest =
          .ok { token := [' '], candidates := candidates ++ [renderAttribute gentestQualifier a] } :=
      fun before rest => PayloadScan.step_plain _ 0 (by simp) (by simp) [] before
    have hafter : AfterAttribute ([',', ' '] ++ renderAttributes gentestQualifier (next :: attributes) ++ []) :=
      .inr ⟨_, rfl⟩
    have hall := (PayloadScan.reads_attribute candidates ha hafter lead before).append fun before =>
      Reads.step (hcomma before _) (.step (hspace _ _) (hreads _))
    simpa [renderAttributes, joinComma] using hall

theorem foldl_appendCandidate (payload : List Char) (hpayload : payload ≠ []) (tokens : List (List Char)) :
    tokens.foldl appendCandidate payload = joinComma (payload :: tokens) := by
  induction tokens generalizing payload with
  | nil => simp [joinComma]
  | cons token tokens ih =>
    have hstep : appendCandidate payload token = payload ++ [',', ' '] ++ token := by
      simp [appendCandidate, hpayload]
    have hne : payload ++ [',', ' '] ++ token ≠ [] := by simp
    rw [List.foldl_cons, hstep, ih _ hne]
    cases tokens with
    | nil => simp [joinComma]
    | cons next tokens => simp [joinComma]

theorem extractGentestScopedPayload_render (a : ParsedAttribute) (attributes : List ParsedAttribute)
    (hnames : ∀ b ∈ a :: attributes, isIdentifier b.name = true) :
    extractGentestScopedPayload (renderAttributes gentestQualifier (a :: attributes)) =
      (some (renderAttributes gentestQualifier (a :: attributes)), []) := by
  obtain ⟨st, hst, hreads⟩ := PayloadScan.reads_attributes [] (.inl rfl) a attributes hnames
  have hpayload : ((a :: attributes).map (renderAttribute gentestQualifier)).foldl appendCandidate [] =
      renderAttributes gentestQualifier (a :: attributes) := by
    have hne : renderAttribute gentestQualifier a ≠ [] := List.cons_ne_nil _ _
    exact foldl_appendCandidate _ hne _
  have hne : renderAttributes gentestQualifier (a :: attributes) ≠ [] := by
    cases attributes with
    | nil => exact List.cons_ne_nil _ _
    | cons next attributes => exact List.cons_ne_nil _ _
  have hcandidates : (a :: attributes).map (renderAttribute gentestQualifier) ≠ [] := List.cons_ne_nil _ _
  rw [List.nil_append] at hst
  simp only [extractGentestScopedPayload, (hreads []).scan_all, hst, hpayload, hne, hcandidates, or_self, ↓reduceIte]

-- ---------------------------------------------------------------------------
-- The two spellings
-- ---------------------------------------------------------------------------

theorem tight_append {front behind : List Char} (middle : List Char) (hfront : Tight front) (hbehind : Tight behind)
    (hfrontNe : front ≠ []) (hbehindNe : behind ≠ []) : Tight (front ++ middle ++ behind) := by
  refine ⟨fun ch hch => hfront.1 ch ?_, fun ch hch => hbehind.2 ch ?_⟩
  · rwa [List.append_assoc, List.head?_append_of_ne_nil _ hfrontNe] at hch
  · rwa [List.getLast?_append_of_ne_nil _ hbehindNe] at hch

theorem renderAttributes_ne_nil {qualifier : List Char} (hq : qualifier = [] ∨ qualifier = gentestQualifier)
    {a : ParsedAttribute} (ha : isIdentifier a.name = true) (attributes : List ParsedAttribute) :
    renderAttributes qualifier (a :: attributes) ≠ [] := by
  obtain ⟨ch, more, htext, -⟩ := renderAttribute_head hq ha
  cases attributes with
  | nil => simp [renderAttributes, joinComma, htext]
  | cons next attributes => simp [renderAttributes, joinComma, htext]

theorem tight_renderAttributes {qualifier : List Char} (hq : qualifier = [] ∨ qualifier = gentestQualifier)
    (attributes : List ParsedAttribute) (hnames : ∀ a ∈ attributes, isIdentifier a.name = true) :
    Tight (renderAttributes qualifier attributes) := by
  induction attributes with
  | nil => exact ⟨fun _ h => (nomatch h), fun _ h => (nomatch h)⟩
  | cons a attributes ih =>
    obtain ⟨ha, hnames⟩ := List.forall_mem_cons.mp hnames
    have hone := tight_renderAttribute hq ha
    cases attributes with
    | nil => simpa [renderAttributes, joinComma] using hone
    | cons next attributes =>
      have hmore := renderAttributes_ne_nil hq (hnames next (List.mem_cons_self ..)) attributes
      obtain ⟨ch, more, htext, -⟩ := renderAttribute_head hq ha
      have hne : renderAttribute qualifier a ≠ [] := by simp [htext]
      simpa [renderAttributes, joinComma] using tight_append [',', ' '] hone (ih hnames) hne hmore

theorem parse_brackets (inner : List Char) :
    parseAttributeNamespaceAndPayload (brackets inner) = parseAttributeSpecifier (trimView inner) := by
  have hwhole : brackets inner = '[' :: ('[' :: inner ++ [']']) ++ [']'] := by simp [brackets]
  have htight : Tight ('[' :: ('[' :: inner ++ [']']) ++ [']']) := tight_cons_append (by decide) (by decide)
  have hsuffix : [']', ']'].isSuffixOf ('[' :: '[' :: (inner ++ [']', ']'])) = true := by
    rw [List.isSuffixOf_iff_suffix]
    exact ⟨'[' :: '[' :: inner, rfl⟩
  rw [parseAttributeNamespaceAndPayload, hwhole, htight.trimView]
  simp [hsuffix, List.isPrefixOf]

theorem parse_using (attributes : List ParsedAttribute) (hnames : ∀ a ∈ attributes, isIdentifier a.name = true) :
    parseAttributeNamespaceAndPayload (usingSpelling attributes) =
      (some (gentestName, renderAttributes [] attributes), []) := by
  rw [usingSpelling, parse_brackets]
  have htight := tight_renderAttributes (.inl rfl) attributes hnames
  cases attributes with
  | nil => rfl
  | cons a attributes =>
    have hne := renderAttributes_ne_nil (.inl rfl) (hnames a (List.mem_cons_self ..)) attributes
    generalize renderAttributes [] (a :: attributes) = text at htight hne
    have hends : ∀ {ch : Char} (middle : List Char), isSpace ch = false →
        trimView (ch :: (middle ++ text)) = ch :: (middle ++ text) := by
      intro ch middle hch
      have hone : Tight [ch] := ⟨by rintro c hc; cases hc; exact hch, by rintro c hc; cases hc; exact hch⟩
      exact (tight_append middle hone htight (List.cons_ne_nil _ _) hne).trimView
    have husing := hends ['s', 'i', 'n', 'g', ' ', 'g', 'e', 'n', 't', 'e', 's', 't', ':', ' ']
      (by decide : isSpace 'u' = false)
    have hgentest := hends ['e', 'n', 't', 'e', 's', 't', ':', ' '] (by decide : isSpace 'g' = false)
    have hcolon := hends [' '] (by decide : isSpace ':' = false)
    simp only [gentestName, List.cons_append, List.nil_append] at husing hgentest hcolon ⊢
    have hidentifier : [':', ' '].map isIdentifierChar = [false, false] ∧
        gentestName.map isIdentifierChar = gentestName.map fun _ => true := by decide
    simp only [gentestName, List.map_cons, List.map_nil, List.cons.injEq, and_true] at hidentifier
    simp [parseAttributeSpecifier, husing, trimView_space, hgentest, hcolon, htight.trimView, List.isPrefixOf,
      hidentifier]

theorem parse_scoped (a : ParsedAttribute) (attributes : List ParsedAttribute)
    (hnames : ∀ b ∈ a :: attributes, isIdentifier b.name = true) :
    parseAttributeNamespaceAndPayload (scopedSpelling (a :: attributes)) =
      (some (gentestName, renderAttributes gentestQualifier (a :: attributes)), []) := by
  rw [scopedSpelling, parse_brackets, (tight_renderAttributes (.inr rfl) _ hnames).trimView]
  have husing : ['u', 's', 'i', 'n', 'g'].isPrefixOf (renderAttributes gentestQualifier (a :: attributes)) = false := by
    cases attributes with
    | nil => rfl
    | cons next attributes => rfl
  simp [parseAttributeSpecifier, husing, extractGentestScopedPayload_render a attributes hnames]

/-- Both spellings of a list of attributes are read back as it was; only the empty
list has no token in the second one, which is then no attribute of gentest. -/
theorem attribute_text_round_trip (attributes : List ParsedAttribute)
    (hnames : ∀ a ∈ attributes, isIdentifier a.name = true) :
    readAttributes (usingSpelling attributes) = some (gentestName, attributes) ∧
      readAttributes (scopedSpelling attributes) =
        if attributes = [] then none else some (gentestName, attributes) := by
  refine ⟨?_, ?_⟩
  · rw [readAttributes, parse_using attributes hnames]
    simp [parseAttributeList_render (.inl rfl) attributes hnames]
  · cases attributes with
    | nil => rfl
    | cons a attributes =>
      rw [readAttributes, parse_scoped a attributes hnames]
      simp [parseAttributeList_render (.inr rfl) (a :: attributes) hnames]

/-- Quotes, commas, parentheses, comment openers and brackets inside arguments. -/
theorem quoted_marks_round_trip :
    (∀ a ∈ [ParsedAttribute.mk ['t', 'e', 's', 't'] [['a', '"', ',', ')', '/', '/'], ['[', '[', '\n']],
        ⟨['f', 'a', 's', 't'], []⟩], isIdentifier a.name = true) ∧
      readAttributes (usingSpelling [⟨['t', 'e', 's', 't'], [['a', '"', ',', ')', '/', '/'], ['[', '[', '\n']]⟩,
          ⟨['f', 'a', 's', 't'], []⟩]) =
        some (gentestName, [⟨['t', 'e', 's', 't'], [['a', '"', ',', ')', '/', '/'], ['[', '[', '\n']]⟩,
          ⟨['f', 'a', 's', 't'], []⟩]) :=
  ⟨by decide, (attribute_text_round_trip _ (by decide)).1⟩

/-- The text `[[]]`. -/
theorem empty_list_is_not_read :
    (∀ a ∈ ([] : List ParsedAttribute), isIdentifier a.name = true) ∧
      readAttributes (scopedSpelling []) ≠ some (gentestName, []) :=
  ⟨by simp, by decide⟩

end Gentest.Codegen
