import Gentest.Scan.IntegerLiteral

/-!
# Conditions

`tokenize_scan_preprocessor_expression` and `ScanPpExpressionParser`. Each level of the
parser takes the tokens that are left and returns a value with the tokens behind it.
The end of the tokens is the end of the list, and a text that has no tokens at all,
because of a letter no token has, is `none`.
-/

namespace Gentest.Scan

open Gentest.Codegen (isSpace)
open LongLong (Fault)

-- ---------------------------------------------------------------------------
-- Tokens
-- ---------------------------------------------------------------------------

inductive Operator
  | logicalOr
  | logicalAnd
  | bitOr
  | bitXor
  | bitAnd
  | equal
  | notEqual
  | less
  | lessEqual
  | greater
  | greaterEqual
  | shiftLeft
  | shiftRight
  | plus
  | minus
  | star
  | slash
  | percent
  deriving DecidableEq, Repr

inductive ScanPpToken
  | identifier (text : List Char)
  | number (text : List Char)
  | lParen
  | rParen
  | op (operator : Operator)
  | not
  | bitNot
  deriving DecidableEq, Repr

def twoCharOperator : Char → Char → Option Operator
  | '|', '|' => some .logicalOr
  | '&', '&' => some .logicalAnd
  | '=', '=' => some .equal
  | '!', '=' => some .notEqual
  | '<', '=' => some .lessEqual
  | '>', '=' => some .greaterEqual
  | '<', '<' => some .shiftLeft
  | '>', '>' => some .shiftRight
  | _, _ => none

def oneCharToken : Char → Option ScanPpToken
  | '(' => some .lParen
  | ')' => some .rParen
  | '|' => some (.op .bitOr)
  | '^' => some (.op .bitXor)
  | '&' => some (.op .bitAnd)
  | '<' => some (.op .less)
  | '>' => some (.op .greater)
  | '+' => some (.op .plus)
  | '-' => some (.op .minus)
  | '*' => some (.op .star)
  | '/' => some (.op .slash)
  | '%' => some (.op .percent)
  | '!' => some .not
  | '~' => some .bitNot
  | _ => none

def isNumberContinue (ch : Char) : Bool := ch.isAlphanum || ch == '_' || ch == '\''

def firstToken (ch : Char) (text : List Char) : Option (ScanPpToken × List Char) :=
  if isScanIdentifierStart ch then
    some (.identifier (ch :: text.takeWhile isScanIdentifierContinue), text.dropWhile isScanIdentifierContinue)
  else if ch.isDigit then
    some (.number (ch :: text.takeWhile isNumberContinue), text.dropWhile isNumberContinue)
  else
    match text.head?.bind (twoCharOperator ch) with
    | some operator => some (.op operator, text.tail)
    | none => (oneCharToken ch).map fun token => (token, text)

/-- At most `turns` turns of the loop. A turn passes at least one character. -/
def tokenizeTurns : Nat → List Char → Option (List ScanPpToken)
  | _, [] => some []
  | 0, _ :: _ => none
  | turns + 1, ch :: text =>
    if isSpace ch then tokenizeTurns turns text
    else
      match firstToken ch text with
      | none => none
      | some (token, rest) => (tokenizeTurns turns rest).map (token :: ·)

def tokenizeScanPreprocessorExpression (text : List Char) : Option (List ScanPpToken) :=
  tokenizeTurns text.length text

-- ---------------------------------------------------------------------------
-- The parser
-- ---------------------------------------------------------------------------

abbrev Reading := Except Fault (Int × List ScanPpToken)

/-- What the parser knows of the macros: which names have one, and the value of a
name. -/
structure Names where
  contains : List Char → Bool
  value : List Char → Except Fault Int

def truth (p : Prop) [Decidable p] : Int := if p then 1 else 0

def Operator.apply : Operator → Int → Int → Except Fault Int
  | .logicalOr, lhs, rhs => .ok (truth (lhs ≠ 0 ∨ rhs ≠ 0))
  | .logicalAnd, lhs, rhs => .ok (truth (lhs ≠ 0 ∧ rhs ≠ 0))
  | .bitOr, lhs, rhs => .ok (Int.lor lhs rhs)
  | .bitXor, lhs, rhs => .ok (Int.xor lhs rhs)
  | .bitAnd, lhs, rhs => .ok (Int.land lhs rhs)
  | .equal, lhs, rhs => .ok (truth (lhs = rhs))
  | .notEqual, lhs, rhs => .ok (truth (lhs ≠ rhs))
  | .less, lhs, rhs => .ok (truth (lhs < rhs))
  | .lessEqual, lhs, rhs => .ok (truth (lhs ≤ rhs))
  | .greater, lhs, rhs => .ok (truth (lhs > rhs))
  | .greaterEqual, lhs, rhs => .ok (truth (lhs ≥ rhs))
  | .shiftLeft, lhs, rhs => LongLong.shiftLeft lhs rhs
  | .shiftRight, lhs, rhs => LongLong.shiftRight lhs rhs
  | .plus, lhs, rhs => LongLong.add lhs rhs
  | .minus, lhs, rhs => LongLong.sub lhs rhs
  | .star, lhs, rhs => LongLong.mul lhs rhs
  | .slash, lhs, rhs => if rhs = 0 then .error .unknown else LongLong.div lhs rhs
  | .percent, lhs, rhs => if rhs = 0 then .error .unknown else LongLong.rem lhs rhs

/-- The `while` loop of a level, for at most `turns` turns. A turn passes at least the
operator. -/
def levelLoop (operators : List Operator) (operand : List ScanPpToken → Reading) :
    Nat → Int → List ScanPpToken → Reading
  | turns + 1, lhs, .op operator :: tokens =>
    if operator ∈ operators then do
      let (rhs, tokens) ← operand tokens
      let value ← operator.apply lhs rhs
      levelLoop operators operand turns value tokens
    else .ok (lhs, .op operator :: tokens)
  | _, lhs, tokens => .ok (lhs, tokens)

/-- A level: an operand, and more of them behind operators of the level. -/
def parseLevel (operators : List Operator) (operand : List ScanPpToken → Reading) (tokens : List ScanPpToken) :
    Reading := do
  let (lhs, tokens) ← operand tokens
  levelLoop operators operand tokens.length lhs tokens

variable (names : Names) (parenthesized : List ScanPpToken → Reading)

/-- `parenthesized` parses what is behind an opening parenthesis. -/
def parsePrimary : List ScanPpToken → Reading
  | .lParen :: tokens =>
    match parenthesized tokens with
    | .ok (value, .rParen :: tokens) => .ok (value, tokens)
    | .ok _ => .error .unknown
    | .error fault => .error fault
  | .identifier text :: tokens =>
    if text = "defined".toList then
      match tokens with
      | .identifier ident :: tokens => .ok (truth (names.contains ident = true), tokens)
      | .lParen :: .identifier ident :: .rParen :: tokens => .ok (truth (names.contains ident = true), tokens)
      | _ => .error .unknown
    else do
      let value ← names.value text
      return (value, tokens)
  | .number text :: tokens => do
    let value ← parseScanIntegerLiteral text
    return (value, tokens)
  | _ => .error .unknown

def parseUnary : List ScanPpToken → Reading
  | .not :: tokens => do
    let (value, tokens) ← parseUnary tokens
    return (truth (value = 0), tokens)
  | .bitNot :: tokens => do
    let (value, tokens) ← parseUnary tokens
    return (Int.not value, tokens)
  | .op .plus :: tokens => parseUnary tokens
  | .op .minus :: tokens => do
    let (value, tokens) ← parseUnary tokens
    let value ← LongLong.neg value
    return (value, tokens)
  | tokens => parsePrimary names parenthesized tokens

def parseMultiplicative : List ScanPpToken → Reading :=
  parseLevel [.star, .slash, .percent] (parseUnary names parenthesized)

def parseAdditive : List ScanPpToken → Reading :=
  parseLevel [.plus, .minus] (parseMultiplicative names parenthesized)

def parseShift : List ScanPpToken → Reading :=
  parseLevel [.shiftLeft, .shiftRight] (parseAdditive names parenthesized)

def parseRelational : List ScanPpToken → Reading :=
  parseLevel [.less, .lessEqual, .greater, .greaterEqual] (parseShift names parenthesized)

def parseEquality : List ScanPpToken → Reading :=
  parseLevel [.equal, .notEqual] (parseRelational names parenthesized)

def parseBitwiseAnd : List ScanPpToken → Reading :=
  parseLevel [.bitAnd] (parseEquality names parenthesized)

def parseBitwiseXor : List ScanPpToken → Reading :=
  parseLevel [.bitXor] (parseBitwiseAnd names parenthesized)

def parseBitwiseOr : List ScanPpToken → Reading :=
  parseLevel [.bitOr] (parseBitwiseXor names parenthesized)

def parseLogicalAnd : List ScanPpToken → Reading :=
  parseLevel [.logicalAnd] (parseBitwiseOr names parenthesized)

def parseLogicalOr : List ScanPpToken → Reading :=
  parseLevel [.logicalOr] (parseLogicalAnd names parenthesized)

/-- An expression inside at most `depth` parentheses. -/
def parseNested : Nat → List ScanPpToken → Reading
  | 0 => fun _ => .error .unknown
  | depth + 1 => parseLogicalOr names (parseNested depth)

/-- `ScanPpExpressionParser::parse`. Every parenthesis is a token of its own. -/
def parseTokens (tokens : List ScanPpToken) : Except Fault Int :=
  match parseNested names (tokens.length + 1) tokens with
  | .ok (value, []) => .ok value
  | .ok _ => .error .unknown
  | .error fault => .error fault

/-- The value of a name whose replacement text the parser `nested` evaluates. -/
def macroValue (macros : MacroTable) (nested : List Char → Except Fault Int) (ident : List Char) : Except Fault Int :=
  match macros ident with
  | none => .ok 0
  | some value => if (trimAsciiView value).isEmpty then .ok 1 else nested (trimAsciiView value)

/-- What a parser knows whose `nested` parsers evaluate the replacement texts. -/
def macroNames (macros : MacroTable) (nested : List Char → Except Fault Int) : Names where
  contains ident := (macros ident).isSome
  value := macroValue macros nested

/-- `ScanPpExpressionParser{text, …}.parse()`. -/
def parseText (names : Names) (text : List Char) : Except Fault Int :=
  match tokenizeScanPreprocessorExpression text with
  | none => .error .unknown
  | some tokens => parseTokens names tokens

/-- A text as an expression, with at most `depth` replacements inside each other. -/
def parseExpression (macros : MacroTable) : Nat → List Char → Except Fault Int
  | 0 => parseText (macroNames macros fun _ => .error .unknown)
  | depth + 1 => parseText (macroNames macros (parseExpression macros depth))

end Gentest.Scan
