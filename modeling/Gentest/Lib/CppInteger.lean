import Gentest.Lib.CppLiteral

/-!
# Integer literals of C++

Decimal, octal, hexadecimal and binary literals with digit separators and a suffix,
and with a sign in front.
-/

namespace CppLiteral

inductive Radix where
  | decimal
  | octal
  | hex (capital : Bool)
  | binary (capital : Bool)
  deriving DecidableEq, Repr

namespace Radix

def base : Radix → Nat
  | decimal => 10
  | octal => 8
  | hex _ => 16
  | binary _ => 2

def lead : Radix → List Char
  | decimal | octal => []
  | hex capital => ['0', if capital then 'X' else 'x']
  | binary capital => ['0', if capital then 'B' else 'b']

/-- What the first digit tells: an octal literal starts with a zero and no decimal
one does. -/
def FirstDigit : Radix → List Char → Prop
  | decimal, group => group.head? ≠ some '0'
  | octal, group => group.head? = some '0'
  | _, _ => True

instance : (radix : Radix) → (group : List Char) → Decidable (radix.FirstDigit group)
  | decimal, _ => inferInstanceAs (Decidable (_ ≠ _))
  | octal, _ => inferInstanceAs (Decidable (_ = _))
  | hex _, _ => inferInstanceAs (Decidable True)
  | binary _, _ => inferInstanceAs (Decidable True)

end Radix

def integerSuffixes : List (List Char) :=
  let signs := ["u", "U"].map String.toList
  let sizes := ["l", "L", "ll", "LL", "z", "Z"].map String.toList
  [[]] ++ signs ++ sizes ++ signs.flatMap (fun s => sizes.map (s ++ ·)) ++ sizes.flatMap fun s => signs.map (s ++ ·)

/-- A literal with the groups of digits between its separators. -/
structure IntegerLiteral where
  sign : List Char
  radix : Radix
  first : List Char
  groups : List (List Char)
  suffix : List Char
  signOk : sign ∈ [[], ['-'], ['+']]
  firstOk : radix.FirstDigit first
  digits : ∀ group ∈ first :: groups, group ≠ [] ∧ ∀ ch ∈ group, isDigit radix.base ch
  suffixOk : suffix ∈ integerSuffixes

namespace IntegerLiteral

def unsignedText (l : IntegerLiteral) : List Char :=
  l.radix.lead ++ ['\''].intercalate (l.first :: l.groups) ++ l.suffix

def text (l : IntegerLiteral) : List Char := l.sign ++ l.unsignedText

def signed (sign : List Char) (n : Nat) : Int := if sign = ['-'] then -(n : Int) else n

def value (l : IntegerLiteral) : Int := signed l.sign (number l.radix.base (l.first :: l.groups).flatten)

end IntegerLiteral

end CppLiteral
