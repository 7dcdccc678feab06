import Gentest.Scan.ConditionValues

/-!
# Macros in conditions

C++ replaces the tokens of a condition and then reads what it gets, while the evaluator
reads the replacement text of a name as an expression of its own. The two agree where
the tokens that replace a name are an operand of the place the name stands in, and where
reading from left to right ends before a name that is none.
-/

namespace Gentest.Scan

open Gentest.Codegen (isSpace)
open CppLiteral (IntegerLiteral)
open LongLong (Fault)

-- ---------------------------------------------------------------------------
-- Operands
-- ---------------------------------------------------------------------------

/-- The tokens print a tree where an operand of a level is needed, and what C++ makes of
them prints another one there: every name, at most `depth` of them inside each other, is
replaced by an operand of the place it stands in. -/
inductive Fits (macros : MacroTable) : Nat → Nat → List ScanPpToken → List ScanPpToken → Tree → Tree → Prop
  | number {depth k} (text : List Char) : Fits macros depth k [.number text] [.number text] (.number text) (.number text)
  | defined {depth k} (ident : List Char) :
      Fits macros depth k [.identifier "defined".toList, .identifier ident] [bitToken (macros ident).isSome]
        (.defined ident) (.number [if (macros ident).isSome then '1' else '0'])
  | definedParen {depth k} (ident : List Char) :
      Fits macros depth k [.identifier "defined".toList, .lParen, .identifier ident, .rParen]
        [bitToken (macros ident).isSome] (.defined ident) (.number [if (macros ident).isSome then '1' else '0'])
  | left {depth k ident} : ident ≠ "defined".toList → macros ident = none →
      Fits macros depth k [.identifier ident] [bitToken false] (.name ident) (.number ['0'])
  | name {depth k ident value inner out tree tree'} : ident ≠ "defined".toList → macros ident = some value →
      tokenizeScanPreprocessorExpression (trimAsciiView value) = some inner →
      Fits macros depth k inner out tree tree' → Fits macros (depth + 1) k [.identifier ident] out (.name ident) tree'
  | unary {depth k tokens out tree tree'} (operator : UnaryOperator) : Fits macros depth unaryLevel tokens out tree tree' →
      Fits macros depth k (operator.token :: tokens) (operator.token :: out) (.unary operator tree) (.unary operator tree')
  | binary {depth k operator left right leftOut rightOut lhs rhs lhs' rhs'} : k ≤ operator.level →
      Fits macros depth operator.level left leftOut lhs lhs' →
      Fits macros depth (operator.level + 1) right rightOut rhs rhs' →
      Fits macros depth k (left ++ .op operator :: right) (leftOut ++ .op operator :: rightOut)
        (.binary operator lhs rhs) (.binary operator lhs' rhs')
  | paren {depth k tokens out tree tree'} : Fits macros depth 0 tokens out tree tree' →
      Fits macros depth k (.lParen :: tokens ++ [.rParen]) (.lParen :: out ++ [.rParen]) tree tree'

variable {macros : MacroTable} {depth k : Nat} {tokens out : List ScanPpToken} {tree tree' : Tree}

theorem Fits.prints (h : Fits macros depth k tokens out tree tree') : Prints k tree tokens := by
  induction h with
  | number text => exact .number text
  | defined ident => exact .defined ident
  | definedParen ident => exact .definedParen ident
  | left hne => exact .name _ hne
  | name hne => exact .name _ hne
  | unary operator _ ih => exact .unary operator ih
  | binary hlevel _ _ ihleft ihright => exact .binary hlevel ihleft ihright
  | paren _ ih => exact .paren ih

theorem bit_value (bit : Bool) : parseScanIntegerLiteral [if bit then '1' else '0'] = .ok (truth (bit = true)) := by
  cases bit <;> decide +kernel

theorem Prints.ne_nil (h : Prints k tree tokens) : tokens ≠ [] := by
  cases h <;> simp

theorem macroValue_some (nested : List Char → Except Fault Int) {ident value : List Char}
    (hmacroDef : macros ident = some value)
    (hne : tokenizeScanPreprocessorExpression (trimAsciiView value) ≠ some []) :
    macroValue macros nested ident = nested (trimAsciiView value) := by
  have hsome : ¬(trimAsciiView value).isEmpty = true := by
    intro hempty
    rw [List.isEmpty_iff.mp hempty] at hne
    exact hne rfl
  unfold macroValue
  rw [hmacroDef]
  dsimp only
  rw [if_neg hsome]

theorem name_value {ident value : List Char} {inner : List ScanPpToken} (hmacroDef : macros ident = some value)
    (hinner : tokenizeScanPreprocessorExpression (trimAsciiView value) = some inner) (hne : inner ≠ []) (depth : Nat) :
    (namesAt macros (depth + 1)).value ident = parseTokens (namesAt macros depth) inner := by
  change macroValue macros (parseExpression macros depth) ident = _
  rw [macroValue_some _ hmacroDef fun heq => hne (Option.some.inj (hinner.symm.trans heq)), parseExpression_eq, parseText,
    hinner]

theorem Fits.denote (h : Fits macros depth k tokens out tree tree') (names : Names) :
    tree.denote (namesAt macros depth) = tree'.denote names := by
  induction h with
  | number text => rfl
  | @defined depth _ ident | @definedParen depth _ ident =>
    rw [Tree.denote, Tree.denote, bit_value]
    cases depth <;> rfl
  | @left depth _ ident _ hnone =>
    have hzero : (namesAt macros depth).value ident = .ok 0 := by
      cases depth <;> simp only [namesAt, macroNames, macroValue, hnone]
    rw [Tree.denote, Tree.denote, hzero]
    exact (bit_value false).symm
  | name hne hmacroDef hinner hfits ih =>
    rw [← ih, Tree.denote, name_value hmacroDef hinner hfits.prints.ne_nil, (hfits.prints.of_le (Nat.zero_le _)).parseTokens_eq]
  | unary operator _ ih => rw [Tree.denote, ih, Tree.denote]
  | binary _ _ _ ihleft ihright => rw [Tree.denote, ihleft, ihright, Tree.denote]
  | paren _ ih => exact ih

-- ---------------------------------------------------------------------------
-- Where reading ends
-- ---------------------------------------------------------------------------

/-- Without macros no name is defined, and every one has the value zero. -/
def plainNames : Names := namesAt (fun _ => none) 32

/-- What C++ left of a tree has this value. -/
def HasPlainValue : Tree → Int → Prop := Evaluates False plainNames.contains fun _ value => value = 0

/-- No operator of a higher level stands in front. -/
def CppStopsAbove (k : Nat) (rest : List CppToken) : Prop :=
  ∀ operator behind, rest = .known (.op operator) :: behind → operator.level ≤ k

/-- Reading the tokens and what C++ makes of them from left to right, the same literal or
the same operation with a fault comes first in both, or a name whose replacement has
tokens that the evaluator does not know. All names in front of it fit. -/
inductive Stuck (macros : MacroTable) : Fault → Nat → Nat → List ScanPpToken → List CppToken → Prop
  | number {fault depth k text rest out} : parseScanIntegerLiteral text = .error fault →
      Stuck macros fault depth k (.number text :: rest) (.known (.number text) :: out)
  | name {fault depth k ident value inner rest out} : ident ≠ "defined".toList → macros ident = some value →
      tokenizeScanPreprocessorExpression (trimAsciiView value) = some inner → Stuck macros fault depth k inner out →
      Stuck macros fault (depth + 1) k (.identifier ident :: rest) out
  | foreign {depth k ident value text rest out} : ident ≠ "defined".toList → macros ident = some value →
      tokenizeScanPreprocessorExpression (trimAsciiView value) = none → .other text ∈ out →
      Stuck macros .unknown depth k (.identifier ident :: rest) out
  | paren {fault depth k tokens out} : Stuck macros fault depth 0 tokens out →
      Stuck macros fault depth k (.lParen :: tokens) (.known .lParen :: out)
  | operand {fault depth k tokens out} (operator : UnaryOperator) : Stuck macros fault depth unaryLevel tokens out →
      Stuck macros fault depth k (operator.token :: tokens) (.known operator.token :: out)
  | unary {fault depth k tokens out tree tree' value rest restOut} (operator : UnaryOperator) :
      Fits macros depth unaryLevel tokens out tree tree' → HasPlainValue tree' value →
      operator.apply value = .error fault →
      Stuck macros fault depth k (operator.token :: (tokens ++ rest))
        (.known operator.token :: (out.map .known ++ restOut))
  | right {fault depth k operator left leftOut lhs lhs' value behind behindOut} : k ≤ operator.level →
      Fits macros depth operator.level left leftOut lhs lhs' → HasPlainValue lhs' value →
      Stuck macros fault depth (operator.level + 1) behind behindOut →
      Stuck macros fault depth k (left ++ .op operator :: behind)
        (leftOut.map .known ++ .known (.op operator) :: behindOut)
  | binary {fault depth k operator left right leftOut rightOut lhs rhs lhs' rhs' value value' rest restOut} :
      k ≤ operator.level → Fits macros depth operator.level left leftOut lhs lhs' → HasPlainValue lhs' value →
      Fits macros depth (operator.level + 1) right rightOut rhs rhs' → HasPlainValue rhs' value' →
      Operator.apply operator value value' = .error fault → StopsAbove operator.level rest →
      CppStopsAbove operator.level restOut →
      Stuck macros fault depth k (left ++ .op operator :: (right ++ rest))
        (leftOut.map .known ++ .known (.op operator) :: (rightOut.map .known ++ restOut))

variable {fault : Fault} {cpp : List CppToken}

theorem Stuck.ne_nil (h : Stuck macros fault depth k tokens cpp) : tokens ≠ [] := by
  cases h <;> simp

theorem SpellsCpp.wellFormed {text : List Char} (h : SpellsCpp cpp text) : ∀ token, .known token ∈ cpp → token.WellFormed := by
  intro token hmem
  induction h with
  | nil => cases hmem
  | known _ hwell _ _ ih =>
    obtain heq | hrest := List.mem_cons.mp hmem
    · exact CppToken.known.inj heq ▸ hwell
    · exact ih hrest
  | other _ _ _ ih => exact ih (by simpa using hmem)

-- ---------------------------------------------------------------------------
-- Answers
-- ---------------------------------------------------------------------------

/-- The evaluator reads the text, which has the tokens, as it reads the other text, which
has what C++ makes of them: all names fit, or reading both ends before a name that does
not, or there is a token that the evaluator does not know. -/
inductive ReadAlike (macros : MacroTable) (text text' : List Char) : List CppToken → List CppToken → Prop
  | fits {tokens out : List ScanPpToken} {tree tree' : Tree} : Fits macros 32 0 tokens out tree tree' →
      ReadAlike macros text text' (tokens.map .known) (out.map .known)
  | stuck {fault : Fault} {tokens : List ScanPpToken} {out : List CppToken} : Stuck macros fault 32 0 tokens out → (fault = .unknown ∨ ∀ other, .other other ∉ out) →
      ¬CallsHasInclude text → ¬CallsHasInclude text' → ReadAlike macros text text' (tokens.map .known) out
  | unknown {tokens out : List CppToken} {other : List Char} : .other other ∈ tokens → ¬CallsHasInclude text → ¬CallsHasInclude text' →
      ReadAlike macros text text' tokens out

def doubled : MacroTable := fun ident => if ident = ['A'] then some ['2'] else none

end Gentest.Scan
