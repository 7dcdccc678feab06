import Gentest.Codegen.CodegenModel
import Gentest.Lib.Scanner

/-!
# Attributes in the text of a declaration

An attribute specifier is taken apart twice: first into the namespace and the
part that belongs to it, then into names with their arguments. Each scanner keeps
its own flags for literals and nesting. Texts are lists of bytes, a byte being the
character of its number.
-/

namespace Gentest.Codegen

open Scanner

-- ---------------------------------------------------------------------------
-- Characters and literals
-- ---------------------------------------------------------------------------

def isIdentifierChar (ch : Char) : Bool := ch.isAlphanum || ch == '_' || ch == '-'

def isWordChar (ch : Char) : Bool := ch.isAlphanum || ch == '_'

def isNameStart (ch : Char) : Bool := ch.isAlpha || ch == '_'

def leadingName : List Char → Option (List Char × List Char)
  | [] => none
  | ch :: rest =>
    if isNameStart ch then some (ch :: rest.takeWhile isIdentifierChar, rest.dropWhile isIdentifierChar)
    else none

/-- The quote a literal ends at and whether its next byte is escaped. -/
abbrev Quoted := Option (Char × Bool)

/-- The flags `in_string`, `in_char` and `escape` after a byte inside a literal. -/
def nextQuoted (quote : Char) (escape : Bool) (ch : Char) : Quoted :=
  (literalStep '\\' quote escape ch).map (quote, ·)

/-- Looks at the text in front of an apostrophe, last byte first. -/
def isCharLiteralPrefix : List Char → Bool
  | '8' :: 'u' :: outer => !outer.head?.any isWordChar
  | ch :: outer => (ch == 'L' || ch == 'u' || ch == 'U') && !outer.head?.any isWordChar
  | [] => false

def shouldEnterCharLiteral (before rest : List Char) : Bool :=
  let prev := before.headD '\x00'
  let next := rest.headD '\x00'
  isCharLiteralPrefix before || (next != '\x00' && !(prev.isAlphanum && next.isAlphanum))

def isOpening (ch : Char) : Bool := ch == '(' || ch == '[' || ch == '{'

def isClosing (ch : Char) : Bool := ch == ')' || ch == ']' || ch == '}'

/-- What stands behind a `)` ends the raw string. -/
def rawStringClosesHere (delimiter rest : List Char) : Bool := (delimiter ++ ['"']).isPrefixOf rest

/-- The delimiter in front of the next `(`, if it has only allowed bytes. -/
def rawDelimiter (allowed : Char → Bool) (text : List Char) : Option (List Char) :=
  let delimiter := text.takeWhile (· != '(')
  if delimiter.all allowed && text.contains '(' then some delimiter else none

def escapeChar : Char → List Char
  | '\\' => ['\\', '\\']
  | '"' => ['\\', '"']
  | '\n' => ['\\', 'n']
  | '\r' => ['\\', 'r']
  | '\t' => ['\\', 't']
  | ch => [ch]

def escapeString (value : List Char) : List Char := value.flatMap escapeChar

-- ---------------------------------------------------------------------------
-- The namespace and its part of the list
-- ---------------------------------------------------------------------------

def knownGentestAttributeNames : List String :=
  ["test", "bench", "benchmark", "baseline", "jitter", "req", "requires", "skip", "template", "parameters",
    "items_per_call", "ops_per_call", "range", "linspace", "geom", "geomspace", "geospace", "logspace",
    "parameters_pack", "fixtures", "fast", "slow", "linux", "windows", "death", "owner", "fixture", "suite"]

def isKnownGentestAttributeName (name : List Char) : Bool :=
  knownGentestAttributeNames.any (·.toList == name.map Char.toLower)

def gentestName : List Char := ['g', 'e', 'n', 't', 'e', 's', 't']

def isGentestScopedAttributeToken (token : List Char) : Bool :=
  match leadingName (trimView token) with
  | none => false
  | some (name, rest) => name == gentestName && [':', ':'].isPrefixOf (rest.dropWhile isSpace)

def isKnownGentestUnscopedToken (token : List Char) : Bool :=
  match leadingName (trimView token) with
  | none => false
  | some (name, rest) => !([':', ':'].isPrefixOf (rest.dropWhile isSpace)) && isKnownGentestAttributeName name

def isRawStringDelimiterChar (ch : Char) : Bool :=
  !isSpace ch && ch != '(' && ch != ')' && ch != '\\' && ch != '"'

def tryStartRawString : List Char → Option (List Char)
  | 'R' :: '"' :: rest => rawDelimiter isRawStringDelimiterChar rest
  | _ => none

inductive Comment
  | line
  | block
  deriving DecidableEq

structure PayloadScan where
  comment : Option Comment := none
  rawString : Option (List Char) := none
  quoted : Quoted := none
  nestingDepth : Nat := 0
  /-- How many bytes the loop has already gone past. -/
  jump : Nat := 0
  /-- The text from `token_start` on. -/
  token : List Char := []
  candidates : List (List Char) := []
  misScopedGentest : List (List Char) := []

def PayloadScan.collectIfGentestRelated (st : PayloadScan) : PayloadScan :=
  let token := trimView st.token
  if token = [] then { st with token := [] }
  else if isGentestScopedAttributeToken token then
    { st with token := [], candidates := st.candidates ++ [token] }
  else if isKnownGentestUnscopedToken token then
    { st with token := [], misScopedGentest := st.misScopedGentest ++ [token] }
  else { st with token := [] }

def PayloadScan.codeStep (st : PayloadScan) (before : List Char) (ch : Char) (rest : List Char) : PayloadScan :=
  let read := { st with token := st.token ++ [ch] }
  if ch = '/' ∧ rest.head? = some '/' then { read with comment := some .line, jump := 1 }
  else if ch = '/' ∧ rest.head? = some '*' then { read with comment := some .block, jump := 1 }
  else
    match tryStartRawString (ch :: rest) with
    | some delimiter => { read with rawString := some delimiter, jump := delimiter.length + 2 }
    | none =>
      if ch = '"' then { read with quoted := some ('"', false) }
      else if ch = '\'' ∧ shouldEnterCharLiteral before rest then { read with quoted := some ('\'', false) }
      else if isOpening ch then { read with nestingDepth := st.nestingDepth + 1 }
      else if isClosing ch then { read with nestingDepth := st.nestingDepth - 1 }
      else if ch = ',' ∧ st.nestingDepth = 0 then st.collectIfGentestRelated
      else read

def PayloadScan.step (st : PayloadScan) (before : List Char) (ch : Char) (rest : List Char) :
    Except Empty PayloadScan :=
  let read := { st with token := st.token ++ [ch] }
  if 0 < st.jump then .ok { read with jump := st.jump - 1 }
  else
    match st.comment, st.rawString, st.quoted with
    | some .line, _, _ => .ok (if ch = '\n' ∨ ch = '\r' then { read with comment := none } else read)
    | some .block, _, _ =>
      .ok (if ch = '*' ∧ rest.head? = some '/' then { read with comment := none, jump := 1 } else read)
    | none, some delimiter, _ =>
      .ok (if ch = ')' ∧ rawStringClosesHere delimiter rest then
        { read with rawString := none, jump := delimiter.length + 1 } else read)
    | none, none, some (quote, escape) => .ok { read with quoted := nextQuoted quote escape ch }
    | none, none, none => .ok (st.codeStep before ch rest)

def appendCandidate (payload token : List Char) : List Char :=
  (if payload = [] then [] else payload ++ [',', ' ']) ++ token

/-- The payload, if there is one, and the bare tokens that look like gentest's. -/
def extractGentestScopedPayload (list : List Char) : Option (List Char) × List (List Char) :=
  match scan PayloadScan.step {} [] list with
  | .error r => nomatch r
  | .ok st =>
    let st := st.collectIfGentestRelated
    let payload := st.candidates.foldl appendCandidate []
    (if st.candidates = [] ∨ payload = [] then none else some payload, st.misScopedGentest)

def parseAttributeSpecifier (attributeList : List Char) : Option (List Char × List Char) × List (List Char) :=
  if ['u', 's', 'i', 'n', 'g'].isPrefixOf attributeList then
    let view := trimView (attributeList.drop 5)
    let namespaceName := view.takeWhile isIdentifierChar
    if namespaceName = [] then (none, [])
    else
      match trimView (view.dropWhile isIdentifierChar) with
      | ':' :: args => (some (namespaceName, trimView args), [])
      | _ => (none, [])
  else
    let namespaceName := attributeList.takeWhile isIdentifierChar
    let view := trimView (attributeList.dropWhile isIdentifierChar)
    let (payload, misScoped) := extractGentestScopedPayload attributeList
    match payload with
    | some payload => (some (gentestName, payload), misScoped)
    | none =>
      -- a list that starts with `gentest::` is accepted also without a token of it
      if namespaceName = gentestName ∧ [':', ':'].isPrefixOf view then
        (some (namespaceName, trimView (view.drop 2)), misScoped)
      else (none, misScoped)

/-- The namespace with the text of its attributes, if the attribute is accepted,
and the bare tokens that look like gentest's. -/
def parseAttributeNamespaceAndPayload (attributeText : List Char) :
    Option (List Char × List Char) × List (List Char) :=
  let view := trimView attributeText
  if !(['[', '['].isPrefixOf view && [']', ']'].isSuffixOf view) then (none, [])
  else parseAttributeSpecifier (trimView ((view.drop 2).take (view.length - 4)))

-- ---------------------------------------------------------------------------
-- Arguments
-- ---------------------------------------------------------------------------

def decodeEscape : Char → Char
  | 'n' => '\n'
  | 'r' => '\r'
  | 't' => '\t'
  | ch => ch

def decodeEscapes : Bool → List Char → List Char
  | false, [] => []
  | true, [] => ['\\']
  | true, ch :: rest => decodeEscape ch :: decodeEscapes false rest
  | false, ch :: rest => if ch = '\\' then decodeEscapes true rest else ch :: decodeEscapes false rest

def unquote (value : List Char) : List Char :=
  let trimmed := trimView value
  if 2 ≤ trimmed.length ∧ trimmed.head? = some '"' ∧ trimmed.getLast? = some '"' then
    decodeEscapes false (trimmed.drop 1).dropLast
  else trimmed

def previousNonSpace (text : List Char) : Char := (text.reverse.find? (!isSpace ·)).getD '\x00'

def nextNonSpace (text : List Char) : Char := (text.find? (!isSpace ·)).getD '\x00'

def isLikelyTemplateLeft (ch : Char) : Bool := ch.isAlpha || "_:>)]".toList.contains ch

def isLikelyTemplateRight (ch : Char) : Bool := ch.isAlphanum || "_:(+-'".toList.contains ch

def nextIdentifierToken (text : List Char) : List Char :=
  match text.dropWhile isSpace with
  | [] => []
  | ch :: rest => if isNameStart ch then ch :: rest.takeWhile isWordChar else []

/-- What follows a `>` lets it close a template argument list. -/
def angleFollower (rest : List Char) : Bool :=
  let follower := nextNonSpace rest
  if follower = '\x00' ∨ "_,)]\x7d\x7b(:;*&".toList.contains follower then true
  else
    let token := nextIdentifierToken rest
    if token = "const".toList ∨ token = "volatile".toList then true
    else if token = [] then false
    else nextNonSpace ((rest.dropWhile isSpace).drop token.length) == '{'

structure AngleScan where
  depth : Nat := 0
  nestedAngle : Nat := 0
  quoted : Quoted := none

def AngleScan.step (st : AngleScan) (before : List Char) (ch : Char) (rest : List Char) :
    Except Bool AngleScan :=
  match st.quoted with
  | some (quote, escape) => .ok { st with quoted := nextQuoted quote escape ch }
  | none =>
    if ch = '"' then .ok { st with quoted := some ('"', false) }
    else if ch = '\'' ∧ shouldEnterCharLiteral before rest then .ok { st with quoted := some ('\'', false) }
    else if isOpening ch then .ok { st with depth := st.depth + 1 }
    else if isClosing ch then .ok { st with depth := st.depth - 1 }
    else if 0 < st.depth then .ok st
    else if ch = '<' then .ok { st with nestedAngle := st.nestedAngle + 1 }
    else if ch = '>' then
      if st.nestedAngle = 0 then .error (angleFollower rest)
      else .ok { st with nestedAngle := st.nestedAngle - 1 }
    else .ok st

/-- The text before ends with the `<` in question. -/
def hasMatchingAngleClose (before rest : List Char) : Bool :=
  match scan AngleScan.step {} before rest with
  | .ok _ => false
  | .error found => found

structure SplitScan where
  parts : List (List Char) := []
  current : List Char := []
  depth : Nat := 0
  angleDepth : Nat := 0
  quoted : Quoted := none

def SplitScan.shouldOpenAngle (st : SplitScan) (before rest : List Char) : Bool :=
  let prev := previousNonSpace st.current
  let next := nextNonSpace rest
  prev != '\x00' && isLikelyTemplateLeft prev && next != '\x00' && next != '<' && next != '=' &&
    isLikelyTemplateRight next && hasMatchingAngleClose ('<' :: before) rest

def SplitScan.pushToken (st : SplitScan) : SplitScan :=
  let token := trimView st.current
  { st with parts := if token = [] then st.parts else st.parts ++ [unquote token], current := [] }

def SplitScan.step (st : SplitScan) (before : List Char) (ch : Char) (rest : List Char) :
    Except Empty SplitScan :=
  let read := { st with current := st.current ++ [ch] }
  match st.quoted with
  | some (quote, escape) => .ok { read with quoted := nextQuoted quote escape ch }
  | none =>
    .ok
      (if ch = '"' then { read with quoted := some ('"', false) }
      else if ch = '\'' then
        if shouldEnterCharLiteral before rest then { read with quoted := some ('\'', false) } else read
      else if isOpening ch then { read with depth := st.depth + 1 }
      else if isClosing ch then { read with depth := st.depth - 1 }
      else if ch = '<' then
        if st.shouldOpenAngle before rest then { read with angleDepth := st.angleDepth + 1 } else read
      else if ch = '>' then { read with angleDepth := st.angleDepth - 1 }
      else if ch = ',' ∧ st.depth = 0 ∧ st.angleDepth = 0 then st.pushToken
      else read)

def splitArguments (arguments : List Char) : List (List Char) :=
  match scan SplitScan.step {} [] arguments with
  | .error r => nomatch r
  | .ok st => st.pushToken.parts

-- ---------------------------------------------------------------------------
-- The list of attributes
-- ---------------------------------------------------------------------------

structure ParsedAttribute where
  name : List Char
  arguments : List (List Char)
  deriving DecidableEq

structure RawStringStart where
  prefixLength : Nat
  delimiter : List Char

def rawStringPrefixes : List (List Char) :=
  [['R', '"'], ['u', 'R', '"'], ['U', 'R', '"'], ['L', 'R', '"'], ['u', '8', 'R', '"']]

def detectRawStringStart (text : List Char) : Option RawStringStart :=
  match rawStringPrefixes.find? (·.isPrefixOf text) with
  | none => none
  | some start =>
    (rawDelimiter (fun ch => ch != '\\' && ch != ')' && !isSpace ch) (text.drop start.length)).map
      fun delimiter => ⟨start.length + delimiter.length + 1, delimiter⟩

structure ClosingScan where
  depth : Nat := 1
  rawString : Option (List Char) := none
  quoted : Quoted := none
  jump : Nat := 0
  /-- The text from `args_start` on. -/
  inside : List Char := []

/-- Stops at the parenthesis that closes the arguments, with the text inside and
the text behind. -/
def ClosingScan.step (st : ClosingScan) (before : List Char) (ch : Char) (rest : List Char) :
    Except (List Char × List Char) ClosingScan :=
  let read := { st with inside := st.inside ++ [ch] }
  if 0 < st.jump then .ok { read with jump := st.jump - 1 }
  else
    match st.rawString, st.quoted with
    | some delimiter, _ =>
      .ok (if ch = ')' ∧ rawStringClosesHere delimiter rest then
        { read with rawString := none, jump := delimiter.length + 1 } else read)
    | none, some (quote, escape) => .ok { read with quoted := nextQuoted quote escape ch }
    | none, none =>
      match detectRawStringStart (ch :: rest) with
      | some start => .ok { read with rawString := some start.delimiter, jump := start.prefixLength - 1 }
      | none =>
        if ch = '"' then .ok { read with quoted := some ('"', false) }
        else if ch = '\'' ∧ shouldEnterCharLiteral before rest then .ok { read with quoted := some ('\'', false) }
        else if ch = '(' then .ok { read with depth := st.depth + 1 }
        else if ch = ')' then
          if st.depth = 1 then .error (st.inside, rest) else .ok { read with depth := st.depth - 1 }
        else .ok read

def textBefore (list rest : List Char) : List Char := (list.take (list.length - rest.length)).reverse

def readArguments (list : List Char) : List Char → List (List Char) × List Char
  | '(' :: text =>
    match scan ClosingScan.step {} (textBefore list text) text with
    | .error (inside, rest) => (splitArguments inside, rest)
    | .ok _ => ([], [])
  | rest => ([], rest)

/-- The loop over `::` and a further name. Each round reads at least three bytes. -/
def readScopes : Nat → List Char → List Char → List Char × List Char
  | 0, name, rest => (name, rest)
  | rounds + 1, name, rest =>
    match rest.dropWhile isSpace with
    | ':' :: ':' :: inner =>
      match leadingName (inner.dropWhile isSpace) with
      | none => (name, rest)
      | some (scopedName, rest) =>
        readScopes rounds (if name = gentestName then scopedName else name ++ [':', ':'] ++ scopedName) rest
    | _ => (name, rest)

def skipComma : List Char → List Char
  | ',' :: rest => rest
  | rest => rest

/-- The loop of `parse_attribute_list`. Each round reads at least one byte. -/
def parseAttributes (list : List Char) : Nat → List Char → List ParsedAttribute
  | 0, _ => []
  | rounds + 1, text =>
    match text.dropWhile isSpace with
    | [] => []
    | ch :: more =>
      match leadingName (ch :: more) with
      | none => parseAttributes list rounds more
      | some (name, rest) =>
        let (name, rest) := readScopes rest.length name rest
        let (arguments, rest) := readArguments list (rest.dropWhile isSpace)
        ⟨name, arguments⟩ :: parseAttributes list rounds (skipComma (rest.dropWhile isSpace))

def parseAttributeList (list : List Char) : List ParsedAttribute := parseAttributes list list.length list

end Gentest.Codegen
