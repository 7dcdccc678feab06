import Gentest.Scan.ExpressionText

/-!
# Conditions in C++

What C++ makes of a condition: the names that are macros are replaced by their tokens,
of the names that are left `true` is one and every other is zero, and what is then left
is an expression whose values are of 64 bits, signed or unsigned, and whose operators
`||`, `&&` and `?:` do not evaluate every operand.
-/

namespace Gentest.Scan

open Gentest.Codegen (isSpace)
open CppLiteral (IntegerLiteral Radix number)
open LongLong (InRange IsShift)

-- ---------------------------------------------------------------------------
-- Tokens
-- ---------------------------------------------------------------------------

/-- A token that the evaluator has as well, or another one, such as `?` and a character
literal. -/
inductive CppToken
  | known (token : ScanPpToken)
  | other (text : List Char)
  deriving DecidableEq, Repr

/-- The evaluator has no tokens for the text, whatever stands behind it. -/
def Foreign (text : List Char) : Prop := ∀ behind, tokenizeScanPreprocessorExpression (text ++ behind) = none

/-- The text is these tokens with white space between them that keeps them apart. -/
inductive SpellsCpp : List CppToken → List Char → Prop
  | nil {gap} : (∀ ch ∈ gap, isSpace ch = true) → SpellsCpp [] gap
  | known {gap token tokens text} : (∀ ch ∈ gap, isSpace ch = true) → token.WellFormed →
      (∀ ch, text.head? = some ch → token.fuses ch = false) → SpellsCpp tokens text →
      SpellsCpp (.known token :: tokens) (gap ++ (token.text ++ text))
  | other {gap text tokens behind} : (∀ ch ∈ gap, isSpace ch = true) → Foreign text → SpellsCpp tokens behind →
      SpellsCpp (.other text :: tokens) (gap ++ (text ++ behind))

theorem Spells.cpp {tokens : List ScanPpToken} {text : List Char} (h : Spells tokens text) :
    SpellsCpp (tokens.map .known) text := by
  induction h with
  | nil hgap => exact .nil hgap
  | cons hgap hwell hstop _ ih => exact .known hgap hwell hstop ih

/-- `1` or `0`. -/
def bitToken (bit : Bool) : ScanPpToken := .number [if bit then '1' else '0']

/-- A value of `std::intmax_t` or `std::uintmax_t`. -/
structure IntMax where
  isUnsigned : Bool
  value : Int
  deriving DecidableEq, Repr

namespace IntMax

/-- A result of a type: modulo 2 ^ 64 if the type is unsigned, and otherwise undefined
out of range. -/
def of? (isUnsigned : Bool) (exact : Int) : Option IntMax :=
  if isUnsigned then some ⟨true, exact % 2 ^ 64⟩ else if InRange exact then some ⟨false, exact⟩ else none

def truth (p : Prop) [Decidable p] : IntMax := ⟨false, Scan.truth p⟩

def converted (isUnsigned : Bool) (v : IntMax) : Int := if isUnsigned then v.value % 2 ^ 64 else v.value

end IntMax

def UnaryOperator.cpp : UnaryOperator → IntMax → Option IntMax
  | .not, v => some (IntMax.truth (v.value = 0))
  | .bitNot, v => IntMax.of? v.isUnsigned (-v.value - 1)
  | .plus, v => some v
  | .minus, v => IntMax.of? v.isUnsigned (-v.value)

/-- Both operands are converted to the unsigned type if one of them has it; a shift has
the type of what is shifted. -/
def Operator.cpp (operator : Operator) (lhs rhs : IntMax) : Option IntMax :=
  let isUnsigned := lhs.isUnsigned || rhs.isUnsigned
  let left := lhs.converted isUnsigned
  let right := rhs.converted isUnsigned
  match operator with
  | .logicalOr => some (IntMax.truth (lhs.value ≠ 0 ∨ rhs.value ≠ 0))
  | .logicalAnd => some (IntMax.truth (lhs.value ≠ 0 ∧ rhs.value ≠ 0))
  | .bitOr => IntMax.of? isUnsigned (Int.lor left right)
  | .bitXor => IntMax.of? isUnsigned (Int.xor left right)
  | .bitAnd => IntMax.of? isUnsigned (Int.land left right)
  | .equal => some (IntMax.truth (left = right))
  | .notEqual => some (IntMax.truth (left ≠ right))
  | .less => some (IntMax.truth (left < right))
  | .lessEqual => some (IntMax.truth (left ≤ right))
  | .greater => some (IntMax.truth (left > right))
  | .greaterEqual => some (IntMax.truth (left ≥ right))
  | .shiftLeft =>
    if IsShift rhs.value then
      let shifted := lhs.value * 2 ^ rhs.value.toNat
      some ⟨lhs.isUnsigned, if lhs.isUnsigned then shifted % 2 ^ 64 else shifted.bmod (2 ^ 64)⟩
    else none
  | .shiftRight => if IsShift rhs.value then some ⟨lhs.isUnsigned, lhs.value / 2 ^ rhs.value.toNat⟩ else none
  | .plus => IntMax.of? isUnsigned (left + right)
  | .minus => IntMax.of? isUnsigned (left - right)
  | .star => IntMax.of? isUnsigned (left * right)
  | .slash => if right = 0 then none else IntMax.of? isUnsigned (left.tdiv right)
  | .percent =>
    if right = 0 then none
    else (IntMax.of? isUnsigned (left.tdiv right)).bind fun _ => IntMax.of? isUnsigned (left.tmod right)

-- ---------------------------------------------------------------------------
-- Expressions
-- ---------------------------------------------------------------------------

inductive CppTree
  | number (literal : IntegerLiteral)
  | character (text : List Char)
  | unary (operator : UnaryOperator) (operand : CppTree)
  | binary (operator : Operator) (lhs rhs : CppTree)
  | conditional (condition yes no : CppTree)

/-- A literal of another radix than ten is unsigned as well where it has no signed value. -/
def isUnsignedLiteral (literal : IntegerLiteral) : Bool :=
  literal.suffix.any ['u', 'U'].contains ||
    literal.radix != .decimal &&
      decide (¬InRange (number literal.radix.base (literal.first :: literal.groups).flatten : Nat))

def CppTree.isUnsigned : CppTree → Bool
  | .number literal => isUnsignedLiteral literal
  | .character _ => false
  | .unary .not _ => false
  | .unary _ operand => operand.isUnsigned
  | .binary operator lhs rhs =>
    match operator with
    | .bitOr | .bitXor | .bitAnd | .plus | .minus | .star | .slash | .percent => lhs.isUnsigned || rhs.isUnsigned
    | .shiftLeft | .shiftRight => lhs.isUnsigned
    | _ => false
  | .conditional _ yes no => yes.isUnsigned || no.isUnsigned

end Gentest.Scan
