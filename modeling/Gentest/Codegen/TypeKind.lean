import Gentest.Codegen.AttributeText

/-!
# Parameter types and the expressions for their values

A type is told by parts of its spelling, white space and qualifiers aside. A value
of a string type is written as a literal unless it looks like one already.
-/

namespace Gentest.Codegen

inductive TypeKind where
  | string
  | char
  | raw
  | other
  deriving DecidableEq, Repr

inductive PointerPolicy where
  | strip
  | keep
  deriving DecidableEq, Repr

-- ---------------------------------------------------------------------------
-- Spellings
-- ---------------------------------------------------------------------------

def hasPart (text : List Char) (part : String) : Bool := text.tails.any part.toList.isPrefixOf

/-- The text without the first place where `needle` stands. -/
def eraseFirst (needle : List Char) : List Char → Option (List Char)
  | [] => none
  | ch :: rest =>
    if needle.isPrefixOf (ch :: rest) then some ((ch :: rest).drop needle.length)
    else (eraseFirst needle rest).map (ch :: ·)

/-- The loop of `erase_all`. Each round erases at least one byte. -/
def eraseAllFrom (needle : List Char) : Nat → List Char → List Char
  | 0, text => text
  | rounds + 1, text =>
    match eraseFirst needle text with
    | none => text
    | some text => eraseAllFrom needle rounds text

def eraseAll (text : List Char) (needle : String) : List Char :=
  eraseAllFrom needle.toList text.length text

def normalizeImpl (text : List Char) (policy : PointerPolicy) : List Char :=
  let plain := ["const ", " const", "volatile ", " volatile", "&", "&&"].foldl eraseAll text
  let pointers := if policy = .strip then eraseAll plain "*" else plain
  (pointers.filter fun ch => !isSpace ch).map Char.toLower

def normalize (text : List Char) : List Char := normalizeImpl text .strip

def normalizeKeepPtr (text : List Char) : List Char := normalizeImpl text .keep

-- ---------------------------------------------------------------------------
-- Literals by their look
-- ---------------------------------------------------------------------------

/-- Starts with the prefix and a quote, ends with a quote, and is long enough
behind the prefix. -/
def looksQuoted (quote : Char) (least : Nat) (token lead : List Char) : Bool :=
  lead.length + least ≤ token.length && (lead ++ [quote]).isPrefixOf token && token.getLast? == some quote

def encodingPrefixes : List (List Char) := [[], ['L'], ['u'], ['U'], ['u', '8']]

def isStringLiteral (token : List Char) : Bool := encodingPrefixes.any (looksQuoted '"' 2 (trimView token))

def isCharLiteral (token : List Char) : Bool := encodingPrefixes.any (looksQuoted '\'' 3 (trimView token))

def charLiteralPrefix (typeName : List Char) : List Char :=
  let normalized := normalize typeName
  if normalized = "wchar_t".toList then ['L']
  else if normalized = "char8_t".toList then ['u', '8']
  else if normalized = "char16_t".toList then ['u']
  else if normalized = "char32_t".toList then ['U']
  else []

-- ---------------------------------------------------------------------------
-- Kinds and expressions
-- ---------------------------------------------------------------------------

def classifyType (typeName : List Char) : TypeKind :=
  let t := normalize typeName
  let p := normalizeKeepPtr typeName
  if t = "raw".toList then .raw
  else if hasPart t "string_view" || hasPart t "string" || hasPart p "char*" || hasPart p "wchar_t*" ||
      hasPart p "char8_t*" || hasPart p "char16_t*" || hasPart p "char32_t*" then .string
  else if ["char", "wchar_t", "char8_t", "char16_t", "char32_t"].any (·.toList == t) then .char
  else .other

def stringLiteralPrefix (typeName : List Char) : List Char :=
  let n := normalize typeName
  let np := normalizeKeepPtr typeName
  if hasPart n "wstring" || hasPart n "wstring_view" || hasPart np "wchar_t*" then ['L']
  else if hasPart n "u8string" || hasPart n "u8string_view" || hasPart np "char8_t*" then ['u', '8']
  else if hasPart n "u16string" || hasPart n "u16string_view" || hasPart np "char16_t*" then ['u']
  else if hasPart n "u32string" || hasPart n "u32string_view" || hasPart np "char32_t*" then ['U']
  else []

def quoteForType (kind : TypeKind) (token typeName : List Char) : List Char :=
  match kind with
  | .string =>
    if isStringLiteral token then token
    else stringLiteralPrefix typeName ++ ['"'] ++ escapeString token ++ ['"']
  | .char =>
    if isCharLiteral token then token
    else if token.length = 1 then
      charLiteralPrefix typeName ++ ['\''] ++
        (if token = ['\''] then ['\\', '\''] else escapeString token) ++ ['\'']
    else token
  | .raw | .other => token

end Gentest.Codegen
