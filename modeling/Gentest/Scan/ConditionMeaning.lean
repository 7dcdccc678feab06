import Gentest.Scan.ExpressionText

/-!
# What a condition means

The value a tree has when `||` and `&&` skip the operand behind them that cannot matter,
and the value it has when nothing is skipped. The evaluator has exactly the second.
`Breaks` is where it stops: at an operation without a result in range or at a division
by zero.
-/

namespace Gentest.Scan

open CppLiteral (number)
open LongLong (Fault InRange checked)

-- ---------------------------------------------------------------------------
-- Values
-- ---------------------------------------------------------------------------

def LiteralNumber (text : List Char) (n : Nat) : Prop :=
  ∃ radix digits suffix, Spelling (bare text) radix digits suffix ∧ number radix.base digits = n

/-- The value of a tree by the operations of 64 bits, with or without skipping operands. -/
inductive Evaluates (skips : Prop) (isDefined : List Char → Bool) (means : List Char → Int → Prop) : Tree → Int → Prop
  | number {text n} : LiteralNumber text n → InRange (n : Nat) → Evaluates skips isDefined means (.number text) n
  | defined (ident : List Char) : Evaluates skips isDefined means (.defined ident) (truth (isDefined ident = true))
  | name {ident value} : means ident value → Evaluates skips isDefined means (.name ident) value
  | unary {operator operand value result} : Evaluates skips isDefined means operand value →
      UnaryOperator.apply operator value = .ok result → Evaluates skips isDefined means (.unary operator operand) result
  | binary {operator lhs rhs left right value} : Evaluates skips isDefined means lhs left →
      Evaluates skips isDefined means rhs right → Operator.apply operator left right = .ok value →
      Evaluates skips isDefined means (.binary operator lhs rhs) value
  | skipOr {lhs rhs left} : skips → Evaluates skips isDefined means lhs left → left ≠ 0 →
      Evaluates skips isDefined means (.binary .logicalOr lhs rhs) 1
  | skipAnd {lhs rhs} : skips → Evaluates skips isDefined means lhs 0 →
      Evaluates skips isDefined means (.binary .logicalAnd lhs rhs) 0

/-- The value of a name whose replacement text `nested` gives a value. -/
def NameMeans (macros : MacroTable) (nested : List Char → Int → Prop) (ident : List Char) (value : Int) : Prop :=
  match macros ident with
  | none => value = 0
  | some text => if (trimAsciiView text).isEmpty then value = 1 else nested (trimAsciiView text) value

/-- The value of a text, with at most `depth` replacements inside each other. -/
def TextMeans (skips : Prop) (macros : MacroTable) : Nat → List Char → Int → Prop
  | 0, text, value => ∃ tokens tree, tokenizeScanPreprocessorExpression text = some tokens ∧ Prints 0 tree tokens ∧
      Evaluates skips (fun ident => (macros ident).isSome) (NameMeans macros fun _ _ => False) tree value
  | depth + 1, text, value => ∃ tokens tree, tokenizeScanPreprocessorExpression text = some tokens ∧ Prints 0 tree tokens ∧
      Evaluates skips (fun ident => (macros ident).isSome) (NameMeans macros (TextMeans skips macros depth)) tree value

-- ---------------------------------------------------------------------------
-- Where reading stops
-- ---------------------------------------------------------------------------

/-- Reading from left to right and computing every operation as soon as its operands are
read, one with the fault comes first, or a literal or a name that gives up. -/
inductive Breaks (fault : Fault) (isDefined : List Char → Bool) (means : List Char → Int → Prop)
    (literal breaking : List Char → Prop) : Nat → List ScanPpToken → Prop
  | number {k text rest} : literal text → Breaks fault isDefined means literal breaking k (.number text :: rest)
  | name {k ident rest} : ident ≠ "defined".toList → breaking ident →
      Breaks fault isDefined means literal breaking k (.identifier ident :: rest)
  | paren {k tokens} : Breaks fault isDefined means literal breaking 0 tokens →
      Breaks fault isDefined means literal breaking k (.lParen :: tokens)
  | operand {k tokens} (operator : UnaryOperator) : Breaks fault isDefined means literal breaking unaryLevel tokens →
      Breaks fault isDefined means literal breaking k (operator.token :: tokens)
  | unary {k tree front value rest} (operator : UnaryOperator) : Prints unaryLevel tree front →
      Evaluates False isDefined means tree value → operator.apply value = .error fault →
      Breaks fault isDefined means literal breaking k (operator.token :: (front ++ rest))
  | right {k operator lhs left value behind} : k ≤ operator.level → Prints operator.level lhs left →
      Evaluates False isDefined means lhs value →
      Breaks fault isDefined means literal breaking (operator.level + 1) behind →
      Breaks fault isDefined means literal breaking k (left ++ .op operator :: behind)
  | binary {k operator lhs rhs left right value value' rest} : k ≤ operator.level → Prints operator.level lhs left →
      Evaluates False isDefined means lhs value → Prints (operator.level + 1) rhs right →
      Evaluates False isDefined means rhs value' → Operator.apply operator value value' = .error fault →
      StopsAbove operator.level rest →
      Breaks fault isDefined means literal breaking k (left ++ .op operator :: (right ++ rest))

/-- Reading a text, and with it the replacement texts of its names, stops at such a place. -/
def TextBreaks (fault : Fault) (literal : List Char → Prop) (macros : MacroTable) : Nat → List Char → Prop
  | 0, text => ∃ tokens, tokenizeScanPreprocessorExpression text = some tokens ∧
      Breaks fault (fun ident => (macros ident).isSome) (NameMeans macros fun _ _ => False) literal (fun _ => False) 0
        tokens
  | depth + 1, text => ∃ tokens, tokenizeScanPreprocessorExpression text = some tokens ∧
      Breaks fault (fun ident => (macros ident).isSome) (NameMeans macros (TextMeans False macros depth)) literal
        (fun ident => ∃ value, macros ident = some value ∧ (trimAsciiView value).isEmpty = false ∧
          TextBreaks fault literal macros depth (trimAsciiView value)) 0 tokens

def IsTooLarge (text : List Char) : Prop := ∃ n, LiteralNumber text n ∧ ¬InRange (n : Nat)

/-- An operation without a result in range comes first. -/
def TextOverflows : MacroTable → Nat → List Char → Prop := TextBreaks .undefined IsTooLarge

theorem literal_eq_ok {text : List Char} {value : Int} (h : text.head?.any Char.isDigit = true) :
    parseScanIntegerLiteral text = .ok value ↔ ∃ n, LiteralNumber text n ∧ InRange (n : Nat) ∧ value = n := by
  rw [parse_eq_bare h]
  constructor
  · intro hparse
    by_contra hnone
    rw [parse_unknown (fun radix digits suffix hspelling => ?_) 1] at hparse
    · cases hparse
    · rw [hspelling.parse, LongLong.checked_eq_ok] at hparse
      exact hnone ⟨_, ⟨radix, digits, suffix, hspelling, rfl⟩, hparse.1, hparse.2.symm⟩
  · rintro ⟨n, ⟨radix, digits, suffix, hspelling, rfl⟩, hrange, rfl⟩
    rw [hspelling.parse, LongLong.checked_of_inRange hrange]

theorem literal_undefined {text : List Char} (h : text.head?.any Char.isDigit = true) :
    parseScanIntegerLiteral text = .error .undefined ↔ ∃ n, LiteralNumber text n ∧ ¬InRange (n : Nat) := by
  rw [parse_eq_bare h]
  constructor
  · intro hparse
    by_contra hnone
    rw [parse_unknown (fun radix digits suffix hspelling => ?_) 1] at hparse
    · cases hparse
    · rw [hspelling.parse] at hparse
      refine hnone ⟨_, ⟨radix, digits, suffix, hspelling, rfl⟩, fun hrange => ?_⟩
      rw [LongLong.checked_of_inRange hrange] at hparse
      cases hparse
  · rintro ⟨n, ⟨radix, digits, suffix, hspelling, rfl⟩, hrange⟩
    rw [hspelling.parse]
    exact if_neg hrange

theorem number_head {text : List Char} (h : ScanPpToken.WellFormed (.number text)) :
    text.head?.any Char.isDigit = true := by
  obtain ⟨ch, rest, rfl, hdigit, -⟩ := h
  exact hdigit

end Gentest.Scan
