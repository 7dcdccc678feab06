import Gentest.Scan.ConditionArithmetic

/-!
# Values of conditions

What the operators mean on numbers without bounds, and the trees all of whose parts have
such a value in the range of 64 bits. On the spelled tokens of such a tree the evaluator
answers whether the value is not zero. Tokens that print no tree have no answer: they
are unknown unless an overflow comes first.
-/

namespace Gentest.Scan

open CppLiteral (IntegerLiteral Radix number)
open LongLong (Fault InRange IsShift checked)

-- ---------------------------------------------------------------------------
-- Exact values
-- ---------------------------------------------------------------------------

/-- A decimal, octal or binary literal without suffix, below 2 ^ 63. -/
def IsPlainLiteral (s : List Char) (n : Nat) : Prop :=
  ∃ l : IntegerLiteral, l.sign = [] ∧ l.suffix = [] ∧ (∀ capital, l.radix ≠ .hex capital) ∧ l.unsignedText = s ∧
    number l.radix.base (l.first :: l.groups).flatten = n ∧ n < 2 ^ 63

def UnaryOperator.exact : UnaryOperator → Int → Int
  | .not, value => truth (value = 0)
  | .bitNot, value => -value - 1
  | .plus, value => value
  | .minus, value => -value

/-- Bits are those of the two's complement without end. A remainder is defined where
the quotient is in range. -/
def Operator.exact : Operator → Int → Int → Option Int
  | .logicalOr, lhs, rhs => some (truth (lhs ≠ 0 ∨ rhs ≠ 0))
  | .logicalAnd, lhs, rhs => some (truth (lhs ≠ 0 ∧ rhs ≠ 0))
  | .bitOr, lhs, rhs => some (Int.lor lhs rhs)
  | .bitXor, lhs, rhs => some (Int.xor lhs rhs)
  | .bitAnd, lhs, rhs => some (Int.land lhs rhs)
  | .equal, lhs, rhs => some (truth (lhs = rhs))
  | .notEqual, lhs, rhs => some (truth (lhs ≠ rhs))
  | .less, lhs, rhs => some (truth (lhs < rhs))
  | .lessEqual, lhs, rhs => some (truth (lhs ≤ rhs))
  | .greater, lhs, rhs => some (truth (lhs > rhs))
  | .greaterEqual, lhs, rhs => some (truth (lhs ≥ rhs))
  | .shiftLeft, lhs, rhs => if IsShift rhs then some (lhs * 2 ^ rhs.toNat) else none
  | .shiftRight, lhs, rhs => if IsShift rhs then some (lhs / 2 ^ rhs.toNat) else none
  | .plus, lhs, rhs => some (lhs + rhs)
  | .minus, lhs, rhs => some (lhs - rhs)
  | .star, lhs, rhs => some (lhs * rhs)
  | .slash, lhs, rhs => if rhs = 0 then none else some (lhs.tdiv rhs)
  | .percent, lhs, rhs => if rhs = 0 ∨ ¬InRange (lhs.tdiv rhs) then none else some (lhs.tmod rhs)

/-- The tree has the value, and all its parts have exact values in range. -/
inductive HasValue (isDefined : List Char → Bool) : Tree → Int → Prop
  | number {text n} : IsPlainLiteral text n → HasValue isDefined (.number text) n
  | defined (ident : List Char) : HasValue isDefined (.defined ident) (truth (isDefined ident = true))
  | unary {operand value} (operator : UnaryOperator) : HasValue isDefined operand value →
      InRange (operator.exact value) → HasValue isDefined (.unary operator operand) (operator.exact value)
  | binary {operator lhs rhs left right value} : HasValue isDefined lhs left → HasValue isDefined rhs right →
      Operator.exact operator left right = some value → InRange value →
      HasValue isDefined (.binary operator lhs rhs) value

-- ---------------------------------------------------------------------------
-- The parser computes exactly
-- ---------------------------------------------------------------------------

theorem plainLiteral_parse {s : List Char} {n : Nat} (h : IsPlainLiteral s n) :
    parseScanIntegerLiteral s = .ok (n : Int) := by
  obtain ⟨l, -, hsuffix, hradix, rfl, rfl, hlt⟩ := h
  have hbase : l.radix.base ≠ 16 := by
    cases hkind : l.radix with
    | hex capital => exact absurd hkind (hradix capital)
    | decimal | octal | binary capital => simp [Radix.base]
  have hdigits : ∀ group ∈ l.first :: l.groups, ∀ ch ∈ group, isLiteralDigit l.radix.base ch = true :=
    fun group hgroup ch hch =>
      isLiteralDigit_of_isDigit (radix_base_mem l.radix) ((l.digits group hgroup).2 ch hch) fun h => absurd h hbase
  have hspelling := unsignedText_spelling l (by simp [hsuffix]) (by simp [hsuffix]) fun ch hch => by
    obtain ⟨group, hgroup, hmem⟩ := List.mem_flatten.mp hch
    exact hdigits group hgroup ch hmem
  have hhead : l.unsignedText.head?.any Char.isDigit = true := by
    obtain ⟨ch, rest, hfirst⟩ := List.exists_cons_of_ne_nil (l.digits l.first List.mem_cons_self).1
    have hcode := (isLiteralDigit_iff (radix_base_pos l.radix)).mp
      (hdigits l.first List.mem_cons_self ch (by rw [hfirst]; exact List.mem_cons_self))
    have hdecimal : ch.isDigit = true := by
      rw [isDigit_iff]
      have hmem := radix_base_mem l.radix
      simp only [List.mem_cons, List.not_mem_nil, or_false] at hmem
      omega
    unfold IntegerLiteral.unsignedText
    cases hkind : l.radix with
    | hex capital => exact absurd hkind (hradix capital)
    | binary capital => rfl
    | decimal | octal => cases hgroups : l.groups <;> simp [Radix.lead, List.intercalate, hfirst, hdecimal]
  have hrange : InRange (number l.radix.base (l.first :: l.groups).flatten : Nat) := by
    unfold InRange
    omega
  rw [parse_eq_bare hhead, hspelling.parse, LongLong.checked_of_inRange hrange]

theorem UnaryOperator.apply_exact (operator : UnaryOperator) {value : Int} (h : InRange (operator.exact value)) :
    operator.apply value = .ok (operator.exact value) := by
  cases operator with
  | not | plus => rfl
  | minus => exact LongLong.checked_of_inRange h
  | bitNot =>
    refine congrArg Except.ok ?_
    cases value with
    | ofNat n =>
      change Int.negSucc n = -(n : Int) - 1
      omega
    | negSucc n =>
      change (n : Int) = -Int.negSucc n - 1
      omega

theorem Operator.apply_exact (operator : Operator) {lhs rhs value : Int} (h : operator.exact lhs rhs = some value)
    (hrange : InRange value) : operator.apply lhs rhs = .ok value := by
  cases operator with
  | logicalOr | logicalAnd | bitOr | bitXor | bitAnd | equal | notEqual | less | lessEqual | greater | greaterEqual =>
    exact congrArg Except.ok (Option.some.inj h)
  | plus | minus | star =>
    obtain rfl := Option.some.inj h
    exact LongLong.checked_of_inRange hrange
  | shiftLeft =>
    simp only [Operator.exact] at h
    split at h
    · rename_i hshift
      obtain rfl := Option.some.inj h
      refine (if_pos hshift).trans (congrArg Except.ok ?_)
      unfold InRange at hrange
      refine Int.bmod_eq_of_le ?_ ?_ <;> omega
    · cases h
  | shiftRight =>
    simp only [Operator.exact] at h
    split at h
    · rename_i hshift
      obtain rfl := Option.some.inj h
      exact if_pos hshift
    · cases h
  | slash =>
    simp only [Operator.exact] at h
    split at h
    · cases h
    · rename_i hzero
      obtain rfl := Option.some.inj h
      exact (if_neg hzero).trans (LongLong.checked_of_inRange hrange)
  | percent =>
    simp only [Operator.exact] at h
    split at h
    · cases h
    · rename_i hdefined
      obtain rfl := Option.some.inj h
      obtain ⟨hzero, hquotient⟩ := not_or.mp hdefined
      refine (if_neg hzero).trans ?_
      rw [LongLong.rem, LongLong.checked_of_inRange (not_not.mp hquotient)]
      rfl

theorem HasValue.denote {names : Names} {tree : Tree} {value : Int} (h : HasValue names.contains tree value) :
    tree.denote names = .ok value := by
  induction h with
  | number hliteral => exact plainLiteral_parse hliteral
  | defined ident => rfl
  | unary operator _ hrange ih =>
    rw [Tree.denote, ih]
    exact operator.apply_exact hrange
  | binary _ _ hexact hrange ihleft ihright =>
    rw [Tree.denote, ihleft, ihright]
    exact Operator.apply_exact _ hexact hrange

-- ---------------------------------------------------------------------------
-- Answers
-- ---------------------------------------------------------------------------

theorem Prints.noHasInclude {k : Nat} {tree : Tree} {tokens : List ScanPpToken} (h : Prints k tree tokens) :
    NoHasInclude tokens := by
  have hshort : ∀ {token : ScanPpToken}, token.text.length < hasInclude.length → ¬hasInclude <:+ token.text :=
    fun hlt hsuffix => absurd hsuffix.length_le (Nat.not_le.mpr hlt)
  have hunary : ∀ operator : UnaryOperator, ¬hasInclude <:+ operator.token.text := by
    intro operator
    cases operator <;> exact hshort (by decide)
  have hbinary : ∀ operator, ¬hasInclude <:+ (ScanPpToken.op operator).text := by
    intro operator
    cases operator <;> exact hshort (by decide)
  induction h with
  | number text => exact .singleton _
  | name ident => exact .singleton _
  | defined ident => exact .cons_cons nofun (.singleton _)
  | definedParen ident =>
    exact .cons_cons (fun _ => hshort (by decide)) (.cons_cons nofun (.cons_cons nofun (.singleton _)))
  | unary operator _ ih => exact ih.cons fun _ _ _ => hunary operator
  | @binary k operator lhs rhs left right _ _ _ ihleft ihright =>
    refine List.isChain_append.mpr ⟨ihleft, ihright.cons fun _ _ _ => hbinary operator, ?_⟩
    intro last _ next hnext hparen
    obtain rfl := Option.some.inj hnext
    cases hparen
  | paren _ ih =>
    refine List.IsChain.cons (List.isChain_append.mpr ⟨ih, .singleton _, ?_⟩) fun _ _ _ => hshort (by decide)
    intro last _ next hnext hparen
    obtain rfl := Option.some.inj hnext
    cases hparen

/-- Every tree of exact values is answered, and tokens that print no tree are not. -/
theorem condition_answers (files : IncludeFiles) (macros : MacroTable) (turns : Nat) {tokens : List ScanPpToken}
    {text : List Char} (hspells : Spells tokens text) :
    (∀ tree value, Prints 0 tree tokens → HasValue (fun ident => (macros ident).isSome) tree value →
      evaluateSimplePreprocessorCondition files macros turns text = some (.ok (decide (value ≠ 0)))) ∧
    (NoHasInclude tokens → (¬∃ tree, Prints 0 tree tokens) →
      (¬TextOverflows macros 32 text →
        evaluateSimplePreprocessorCondition files macros turns text = some (.error .unknown)) ∧
      (TextOverflows macros 32 text →
        evaluateSimplePreprocessorCondition files macros turns text = some (.error .undefined))) := by
  refine ⟨fun tree value hprints hvalue => ?_, fun hno hnone => ?_⟩
  · have hparsed : parseTokens (namesAt macros 32) tokens = .ok value :=
      parseTokens_eq_ok.mpr ⟨tree, hprints, HasValue.denote hvalue⟩
    rw [hspells.evaluate hprints.noHasInclude files macros turns, hparsed]
    rfl
  · have hover : TextOverflows macros 32 text ↔ parseTokens (namesAt macros 32) tokens = .error .undefined := by
      rw [← parseExpression_undefined, parseExpression_eq, parseText, hspells.tokenize]
    rw [hspells.evaluate hno files macros turns, hover]
    cases hparsed : parseTokens (namesAt macros 32) tokens with
    | ok value =>
      obtain ⟨tree, hprints, -⟩ := parseTokens_eq_ok.mp hparsed
      exact absurd ⟨tree, hprints⟩ hnone
    | error fault =>
      cases fault with
      | unknown => exact ⟨fun _ => rfl, fun hundefined => (by cases hundefined)⟩
      | undefined => exact ⟨fun hdefined => absurd rfl hdefined, fun _ => rfl⟩

theorem plain_two : IsPlainLiteral ['2'] 2 :=
  ⟨⟨[], .decimal, ['2'], [], [], by decide, by decide, by decide, by decide⟩, rfl, rfl, fun _ h => (nomatch h), rfl, rfl,
    by decide⟩

theorem plain_one : IsPlainLiteral ['1'] 1 :=
  ⟨⟨[], .decimal, ['1'], [], [], by decide, by decide, by decide, by decide⟩, rfl, rfl, fun _ h => (nomatch h), rfl, rfl,
    by decide⟩

def subtraction : List ScanPpToken := [.number ['2'], .op .minus, .number ['1'], .op .minus, .number ['1']]

/-- `2-1-1` is zero: the operators of a level group to the left. -/
theorem subtraction_answered :
    evaluateSimplePreprocessorCondition noFiles (fun _ => none) 0 ['2', '-', '1', '-', '1'] = some (.ok false) := by
  have hright : Prints 8 (.binary .minus (.number ['2']) (.number ['1'])) [.number ['2'], .op .minus, .number ['1']] :=
    @Prints.binary 8 .minus _ _ _ _ (Nat.le_refl 8) (.number _) (.number _)
  have hprints : Prints 0 (.binary .minus (.binary .minus (.number ['2']) (.number ['1'])) (.number ['1'])) subtraction :=
    @Prints.binary 0 .minus _ _ _ _ (Nat.zero_le 8) hright (.number _)
  have hspells : Spells subtraction ['2', '-', '1', '-', '1'] := tokenize_iff.mp (by decide)
  exact (condition_answers noFiles (fun _ => none) 0 hspells).1 _ 0 hprints
    (.binary (.binary (.number plain_two) (.number plain_one) rfl (by decide)) (.number plain_one) rfl (by decide))

/-- A name alone is no tree of literals and tests, and has the value zero. -/
theorem name_answered :
    Spells [.identifier ['X']] ['X'] ∧ (∀ tree isDefined value, Prints 0 tree [.identifier ['X']] → ¬HasValue isDefined tree value) ∧
      evaluateSimplePreprocessorCondition noFiles (fun _ => none) 0 ['X'] = some (.ok false) := by
  refine ⟨tokenize_iff.mp (by decide), ?_, rfl⟩
  intro tree isDefined value hprints hvalue
  generalize htokens : [ScanPpToken.identifier ['X']] = tokens at hprints
  cases hprints with
  | name ident => cases hvalue
  | number text | defined ident | definedParen ident => cases htokens
  | unary operator => cases operator <;> cases htokens
  | paren => cases htokens
  | @binary _ _ _ _ left right =>
    have hlength := congrArg List.length htokens
    obtain rfl : left = [] := by
      simp only [List.length_append, List.length_cons, List.length_nil] at hlength
      exact List.length_eq_zero_iff.mp (by omega)
    cases htokens

end Gentest.Scan
