import Gentest.Scan.Expression

/-!
# Trees of conditions

A tree is printed with the parentheses its levels need, and more of them where one
likes. On the tokens of a printed tree the parser computes what the tree denotes, and
whatever it computes is denoted by a tree that the tokens print.
-/

namespace Gentest.Scan

open LongLong (Fault)

-- ---------------------------------------------------------------------------
-- Trees
-- ---------------------------------------------------------------------------

inductive UnaryOperator
  | not
  | bitNot
  | plus
  | minus
  deriving DecidableEq, Repr

def UnaryOperator.token : UnaryOperator → ScanPpToken
  | .not => .not
  | .bitNot => .bitNot
  | .plus => .op .plus
  | .minus => .op .minus

def UnaryOperator.apply : UnaryOperator → Int → Except Fault Int
  | .not, value => .ok (truth (value = 0))
  | .bitNot, value => .ok (Int.not value)
  | .plus, value => .ok value
  | .minus, value => LongLong.neg value

inductive Tree
  | number (text : List Char)
  | defined (ident : List Char)
  | name (ident : List Char)
  | unary (operator : UnaryOperator) (operand : Tree)
  | binary (operator : Operator) (lhs rhs : Tree)
  deriving DecidableEq, Repr

def Operator.level : Operator → Nat
  | .logicalOr => 0
  | .logicalAnd => 1
  | .bitOr => 2
  | .bitXor => 3
  | .bitAnd => 4
  | .equal | .notEqual => 5
  | .less | .lessEqual | .greater | .greaterEqual => 6
  | .shiftLeft | .shiftRight => 7
  | .plus | .minus => 8
  | .star | .slash | .percent => 9

/-- The level of a unary operator and its operand. -/
def unaryLevel : Nat := 10

/-- The tokens print the tree where an operand of a level is needed. -/
inductive Prints : Nat → Tree → List ScanPpToken → Prop
  | number {k} (text : List Char) : Prints k (.number text) [.number text]
  | defined {k} (ident : List Char) : Prints k (.defined ident) [.identifier "defined".toList, .identifier ident]
  | definedParen {k} (ident : List Char) :
    Prints k (.defined ident) [.identifier "defined".toList, .lParen, .identifier ident, .rParen]
  | name {k} (ident : List Char) : ident ≠ "defined".toList → Prints k (.name ident) [.identifier ident]
  | unary {k operand tokens} (operator : UnaryOperator) :
    Prints unaryLevel operand tokens → Prints k (.unary operator operand) (operator.token :: tokens)
  | binary {k operator lhs rhs left right} :
    k ≤ operator.level → Prints operator.level lhs left → Prints (operator.level + 1) rhs right →
      Prints k (.binary operator lhs rhs) (left ++ .op operator :: right)
  | paren {k tree tokens} : Prints 0 tree tokens → Prints k tree (.lParen :: tokens ++ [.rParen])

variable (names : Names)

/-- The value of a tree, its operands taken from left to right. -/
def Tree.denote : Tree → Except Fault Int
  | .number text => parseScanIntegerLiteral text
  | .defined ident => .ok (truth (names.contains ident = true))
  | .name ident => names.value ident
  | .unary operator operand => do
    let value ← operand.denote
    operator.apply value
  | .binary operator lhs rhs => do
    let left ← lhs.denote
    let right ← rhs.denote
    operator.apply left right

-- ---------------------------------------------------------------------------
-- Levels
-- ---------------------------------------------------------------------------

def operatorsOf : Nat → List Operator
  | 0 => [.logicalOr]
  | 1 => [.logicalAnd]
  | 2 => [.bitOr]
  | 3 => [.bitXor]
  | 4 => [.bitAnd]
  | 5 => [.equal, .notEqual]
  | 6 => [.less, .lessEqual, .greater, .greaterEqual]
  | 7 => [.shiftLeft, .shiftRight]
  | 8 => [.plus, .minus]
  | 9 => [.star, .slash, .percent]
  | _ => []

theorem mem_operatorsOf {operator : Operator} {k : Nat} : operator ∈ operatorsOf k ↔ operator.level = k := by
  unfold operatorsOf
  split <;> cases operator <;> simp only [Operator.level, List.mem_cons, List.not_mem_nil] <;> grind

variable (parenthesized : List ScanPpToken → Reading)

def parseAt : Nat → List ScanPpToken → Reading
  | 0 => parseLogicalOr names parenthesized
  | 1 => parseLogicalAnd names parenthesized
  | 2 => parseBitwiseOr names parenthesized
  | 3 => parseBitwiseXor names parenthesized
  | 4 => parseBitwiseAnd names parenthesized
  | 5 => parseEquality names parenthesized
  | 6 => parseRelational names parenthesized
  | 7 => parseShift names parenthesized
  | 8 => parseAdditive names parenthesized
  | 9 => parseMultiplicative names parenthesized
  | _ => parseUnary names parenthesized

theorem parseAt_level {k : Nat} (hk : k < unaryLevel) :
    parseAt names parenthesized k = parseLevel (operatorsOf k) (parseAt names parenthesized (k + 1)) := by
  have hlevels : k = 0 ∨ k = 1 ∨ k = 2 ∨ k = 3 ∨ k = 4 ∨ k = 5 ∨ k = 6 ∨ k = 7 ∨ k = 8 ∨ k = 9 := by
    unfold unaryLevel at hk
    omega
  obtain rfl | rfl | rfl | rfl | rfl | rfl | rfl | rfl | rfl | rfl := hlevels <;> rfl

theorem parsePrimary_number (text : List Char) (rest : List ScanPpToken) :
    parsePrimary names parenthesized (.number text :: rest) = (parseScanIntegerLiteral text).map (·, rest) := by
  change ((parseScanIntegerLiteral text).bind fun value => .ok (value, rest)) = _
  cases parseScanIntegerLiteral text <;> rfl

theorem parsePrimary_name {ident : List Char} (h : ident ≠ "defined".toList) (rest : List ScanPpToken) :
    parsePrimary names parenthesized (.identifier ident :: rest) = (names.value ident).map (·, rest) := by
  refine (if_neg h).trans ?_
  change ((names.value ident).bind fun value => .ok (value, rest)) = _
  cases names.value ident <;> rfl

theorem parsePrimary_paren {tokens rest : List ScanPpToken} {value : Except Fault Int}
    (h : parenthesized tokens = value.map (·, .rParen :: rest)) :
    parsePrimary names parenthesized (.lParen :: tokens) = value.map (·, rest) := by
  simp only [parsePrimary, h]
  cases value <;> rfl

theorem parseNested_succ (depth : Nat) :
    parseNested names (depth + 1) = parseAt names (parseNested names depth) 0 := rfl

-- ---------------------------------------------------------------------------
-- What is left gets shorter
-- ---------------------------------------------------------------------------

/-- What the parser leaves is shorter than what it is given. -/
def Shortens (parser : List ScanPpToken → Reading) : Prop :=
  ∀ tokens value rest, parser tokens = .ok (value, rest) → rest.length < tokens.length

variable {names parenthesized} {operators : List Operator} {operand : List ScanPpToken → Reading}

theorem bind_eq_ok {ε α β : Type} {x : Except ε α} {f : α → Except ε β} {b : β}
    (h : x.bind f = .ok b) : ∃ a, x = .ok a ∧ f a = .ok b := by
  cases x with
  | error e => cases h
  | ok a => exact ⟨a, rfl, h⟩

theorem map_eq_ok {ε α β : Type} {x : Except ε α} {f : α → β} {b : β} (h : x.map f = .ok b) :
    ∃ a, x = .ok a ∧ f a = b := by
  cases x with
  | error e => cases h
  | ok a => exact ⟨a, rfl, Except.ok.inj h⟩

/-- The loop stops in front of anything but an operator of its level. -/
theorem levelLoop_stop (turns : Nat) (lhs : Int) {tokens : List ScanPpToken}
    (h : ∀ operator rest, tokens = .op operator :: rest → operator ∉ operators) :
    levelLoop operators operand turns lhs tokens = .ok (lhs, tokens) := by
  unfold levelLoop
  split
  · exact if_neg (h _ _ rfl)
  · rfl

theorem levelLoop_turn (turns : Nat) (lhs : Int) {operator : Operator} (h : operator ∈ operators)
    (tokens : List ScanPpToken) :
    levelLoop operators operand (turns + 1) lhs (.op operator :: tokens) =
      (operand tokens).bind fun (rhs, rest) =>
        (operator.apply lhs rhs).bind fun value => levelLoop operators operand turns value rest :=
  if_pos h

theorem levelLoop_cases (operators : List Operator) (tokens : List ScanPpToken) :
    (∀ operator rest, tokens = .op operator :: rest → operator ∉ operators) ∨
      ∃ operator rest, tokens = .op operator :: rest ∧ operator ∈ operators := by
  by_cases h : ∃ operator rest, tokens = .op operator :: rest ∧ operator ∈ operators
  · exact .inr h
  · exact .inl fun operator rest heq hmem => h ⟨operator, rest, heq, hmem⟩

theorem levelLoop_length (h : Shortens operand) (turns : Nat) :
    ∀ (lhs value : Int) (tokens rest : List ScanPpToken),
      levelLoop operators operand turns lhs tokens = .ok (value, rest) → rest.length ≤ tokens.length := by
  induction turns with
  | zero =>
    intro lhs value tokens rest heq
    obtain ⟨-, rfl⟩ := Prod.mk.inj (Except.ok.inj heq)
    exact Nat.le_refl _
  | succ turns ih =>
    intro lhs value tokens rest heq
    obtain hstop | ⟨operator, behind, rfl, hmem⟩ := levelLoop_cases operators tokens
    · rw [levelLoop_stop _ _ hstop] at heq
      obtain ⟨-, rfl⟩ := Prod.mk.inj (Except.ok.inj heq)
      exact Nat.le_refl _
    · rw [levelLoop_turn _ _ hmem] at heq
      obtain ⟨⟨rhs, left⟩, hoperand, hgo⟩ := bind_eq_ok heq
      obtain ⟨next, -, hloop⟩ := bind_eq_ok hgo
      have hshort := h _ _ _ hoperand
      have hrest := ih _ _ _ _ hloop
      rw [List.length_cons]
      omega

theorem levelLoop_turns (h : Shortens operand) (turns : Nat) :
    ∀ (turns' : Nat) (lhs : Int) (tokens : List ScanPpToken), tokens.length ≤ turns → tokens.length ≤ turns' →
      levelLoop operators operand turns lhs tokens = levelLoop operators operand turns' lhs tokens := by
  induction turns with
  | zero =>
    intro turns' lhs tokens hturns hturns'
    obtain rfl := List.length_eq_zero_iff.mp (Nat.le_zero.mp hturns)
    have hend : ∀ operator rest, [] = ScanPpToken.op operator :: rest → operator ∉ operators := fun _ _ h => nomatch h
    rw [levelLoop_stop _ _ hend, levelLoop_stop _ _ hend]
  | succ turns ih =>
    intro turns' lhs tokens hturns hturns'
    obtain hstop | ⟨operator, behind, rfl, hmem⟩ := levelLoop_cases operators tokens
    · rw [levelLoop_stop _ _ hstop, levelLoop_stop _ _ hstop]
    · obtain ⟨turns', rfl⟩ : ∃ n, turns' = n + 1 := Nat.exists_eq_add_of_le' (Nat.le_trans (Nat.le_add_left 1 _) hturns')
      rw [levelLoop_turn _ _ hmem, levelLoop_turn _ _ hmem]
      cases hoperand : operand behind with
      | error fault => rfl
      | ok reading =>
        obtain ⟨rhs, left⟩ := reading
        have hshort := h _ _ _ hoperand
        rw [List.length_cons] at hturns hturns'
        simp only [Except.bind]
        cases operator.apply lhs rhs with
        | error fault => rfl
        | ok value => exact ih _ _ _ (by omega) (by omega)

theorem parseLevel_shortens (h : Shortens operand) : Shortens (parseLevel operators operand) := by
  intro tokens value rest heq
  obtain ⟨⟨lhs, behind⟩, hoperand, hloop⟩ := bind_eq_ok heq
  have hshort := h _ _ _ hoperand
  have hrest := levelLoop_length h _ _ _ _ _ hloop
  omega

theorem parsePrimary_shortens (h : Shortens parenthesized) : Shortens (parsePrimary names parenthesized) := by
  intro tokens value rest heq
  unfold parsePrimary at heq
  split at heq
  · split at heq
    · rename_i hparsed
      obtain ⟨rfl, rfl⟩ := Prod.mk.inj (Except.ok.inj heq)
      have hshort := h _ _ _ hparsed
      simp only [List.length_cons] at hshort ⊢
      omega
    · cases heq
    · cases heq
  · split at heq
    · split at heq
      · obtain ⟨-, rfl⟩ := Prod.mk.inj (Except.ok.inj heq)
        simp only [List.length_cons]
        omega
      · obtain ⟨-, rfl⟩ := Prod.mk.inj (Except.ok.inj heq)
        simp only [List.length_cons]
        omega
      · cases heq
    · obtain ⟨_, -, hpure⟩ := bind_eq_ok heq
      obtain ⟨-, rfl⟩ := Prod.mk.inj (Except.ok.inj hpure)
      exact Nat.lt_succ_self _
  · obtain ⟨_, -, hpure⟩ := bind_eq_ok heq
    obtain ⟨-, rfl⟩ := Prod.mk.inj (Except.ok.inj hpure)
    exact Nat.lt_succ_self _
  · cases heq

theorem parseUnary_operator (operator : UnaryOperator) (tokens : List ScanPpToken) :
    parseUnary names parenthesized (operator.token :: tokens) =
      (parseUnary names parenthesized tokens).bind fun (value, rest) => (operator.apply value).map (·, rest) := by
  cases operator with
  | plus =>
    simp only [UnaryOperator.token, parseUnary, UnaryOperator.apply]
    cases parseUnary names parenthesized tokens <;> rfl
  | not | bitNot => rfl
  | minus =>
    simp only [UnaryOperator.token, parseUnary, UnaryOperator.apply]
    cases parseUnary names parenthesized tokens with
    | error fault => rfl
    | ok reading =>
      obtain ⟨value, rest⟩ := reading
      cases h : LongLong.neg value <;> simp [h, Bind.bind, Except.bind, Except.map, Pure.pure, Except.pure]

theorem parseUnary_primary {tokens : List ScanPpToken}
    (h : ∀ (operator : UnaryOperator) rest, tokens ≠ operator.token :: rest) :
    parseUnary names parenthesized tokens = parsePrimary names parenthesized tokens := by
  unfold parseUnary
  split
  · exact absurd rfl (h .not _)
  · exact absurd rfl (h .bitNot _)
  · exact absurd rfl (h .plus _)
  · exact absurd rfl (h .minus _)
  · rfl

theorem parseUnary_shortens (h : Shortens parenthesized) : Shortens (parseUnary names parenthesized) := by
  intro tokens
  induction tokens with
  | nil => exact fun value rest heq => parsePrimary_shortens h [] value rest heq
  | cons token tokens ih =>
    intro value rest heq
    by_cases hunary : ∃ operator : UnaryOperator, token = operator.token
    · obtain ⟨operator, rfl⟩ := hunary
      rw [parseUnary_operator] at heq
      obtain ⟨⟨operand, behind⟩, hoperand, hmap⟩ := bind_eq_ok heq
      have hshort := ih _ _ hoperand
      obtain ⟨_, -, hpair⟩ := map_eq_ok hmap
      obtain ⟨-, rfl⟩ := Prod.mk.inj hpair
      exact Nat.lt_succ_of_lt hshort
    · rw [parseUnary_primary fun operator behind hcons => hunary ⟨operator, (List.cons.inj hcons).1⟩] at heq
      exact parsePrimary_shortens h _ _ _ heq

theorem parseAt_shortens (h : Shortens parenthesized) (k : Nat) : Shortens (parseAt names parenthesized k) := by
  by_cases hk : k < unaryLevel
  · rw [parseAt_level names parenthesized hk]
    exact parseLevel_shortens (parseAt_shortens h (k + 1))
  · have hunary : parseAt names parenthesized k = parseUnary names parenthesized := by
      unfold unaryLevel at hk
      unfold parseAt
      split <;> first | omega | rfl
    rw [hunary]
    exact parseUnary_shortens h
termination_by unaryLevel - k

theorem parseNested_shortens (depth : Nat) : Shortens (parseNested names depth) := by
  induction depth with
  | zero => exact fun _ _ _ heq => nomatch heq
  | succ depth ih => exact parseAt_shortens ih 0

-- ---------------------------------------------------------------------------
-- A printed tree is parsed
-- ---------------------------------------------------------------------------

/-- What is left does not start with an operator that binds more tightly than the
level. -/
def StopsAbove (k : Nat) (rest : List ScanPpToken) : Prop :=
  ∀ operator behind, rest = .op operator :: behind → operator.level ≤ k

def goOn (names : Names) (parenthesized : List ScanPpToken → Reading) (k : Nat) (lhs : Int) (rest : List ScanPpToken) :
    Reading :=
  levelLoop (operatorsOf k) (parseAt names parenthesized (k + 1)) rest.length lhs rest

theorem goOn_stop {k j : Nat} {rest : List ScanPpToken} (h : StopsAbove k rest) (hk : k < j) (lhs : Int) :
    goOn names parenthesized j lhs rest = .ok (lhs, rest) := by
  refine levelLoop_stop _ _ fun operator behind heq hmem => ?_
  have hlevel := mem_operatorsOf.mp hmem
  have hle := h operator behind heq
  omega

theorem goOn_unary (lhs : Int) (rest : List ScanPpToken) :
    goOn names parenthesized unaryLevel lhs rest = .ok (lhs, rest) :=
  levelLoop_stop _ _ fun _ _ _ hmem => nomatch hmem

/-- At a level the tokens are an operand with the value, whatever stands behind it. -/
def ReadsAt (names : Names) (parenthesized : List ScanPpToken → Reading) (k : Nat) (value : Except Fault Int)
    (tokens : List ScanPpToken) : Prop :=
  ∀ rest, StopsAbove k rest →
    parseAt names parenthesized k (tokens ++ rest) = value.bind fun value => goOn names parenthesized k value rest

theorem ReadsAt.below {k j : Nat} {value : Except Fault Int} {tokens : List ScanPpToken}
    (h : ReadsAt names parenthesized k value tokens) (hk : k ≤ unaryLevel) (hj : j ≤ k) :
    ReadsAt names parenthesized j value tokens := by
  induction hj using Nat.decreasingInduction with
  | self => exact h
  | of_succ j hj ih =>
    intro rest hstop
    have hread := ih rest fun operator behind heq => Nat.le_succ_of_le (hstop operator behind heq)
    rw [parseAt_level names parenthesized (Nat.lt_of_lt_of_le hj hk), parseLevel, hread]
    cases value with
    | error fault => rfl
    | ok value =>
      simp only [Except.bind, goOn_stop hstop (Nat.lt_succ_self j)]
      rfl

theorem readsAt_of_unary {j : Nat} {value : Except Fault Int} {tokens : List ScanPpToken}
    (h : ∀ rest, parseUnary names parenthesized (tokens ++ rest) = value.map (·, rest)) (hj : j ≤ unaryLevel) :
    ReadsAt names parenthesized j value tokens := by
  refine ReadsAt.below (k := unaryLevel) (fun rest _ => ?_) (Nat.le_refl _) hj
  refine (h rest).trans ?_
  simp only [goOn_unary]
  rfl

theorem readsAt_binary {operator : Operator} {left right : Except Fault Int} {ltokens rtokens : List ScanPpToken}
    (hshort : Shortens parenthesized) (hleft : ReadsAt names parenthesized operator.level left ltokens)
    (hright : ReadsAt names parenthesized (operator.level + 1) right rtokens) :
    ReadsAt names parenthesized operator.level (left.bind fun lhs => right.bind (operator.apply lhs))
      (ltokens ++ .op operator :: rtokens) := by
  intro rest hstop
  have hmem : operator ∈ operatorsOf operator.level := mem_operatorsOf.mpr rfl
  rw [List.append_assoc, List.cons_append, hleft (.op operator :: (rtokens ++ rest)) fun other behind heq => by
    obtain rfl := ScanPpToken.op.inj (List.cons.inj heq).1
    exact Nat.le_refl _]
  cases left with
  | error fault => rfl
  | ok lhs =>
    simp only [Except.bind, goOn, List.length_cons, levelLoop_turn _ _ hmem]
    rw [hright rest fun other behind heq => Nat.le_succ_of_le (hstop other behind heq)]
    cases right with
    | error fault => rfl
    | ok rhs =>
      simp only [Except.bind, goOn_stop hstop (Nat.lt_succ_self _)]
      cases operator.apply lhs rhs with
      | error fault => rfl
      | ok value =>
        refine levelLoop_turns (parseAt_shortens hshort _) _ _ _ _ ?_ (Nat.le_refl _)
        simp

theorem Prints.readsAt (names : Names) {k : Nat} {tree : Tree} {tokens : List ScanPpToken} (h : Prints k tree tokens) :
    ∀ depth j, tokens.length ≤ depth → j ≤ k → j ≤ unaryLevel →
      ReadsAt names (parseNested names depth) j (tree.denote names) tokens := by
  induction h with
  | number text =>
    intro depth j _ _ hj
    refine readsAt_of_unary (fun rest => ?_) hj
    rw [Tree.denote]
    exact (parseUnary_primary fun operator _ => by cases operator <;> exact nofun).trans
      (parsePrimary_number names _ text rest)
  | defined ident =>
    intro depth j _ _ hj
    refine readsAt_of_unary (fun rest => ?_) hj
    exact parseUnary_primary fun operator _ => by cases operator <;> exact nofun
  | definedParen ident =>
    intro depth j _ _ hj
    refine readsAt_of_unary (fun rest => ?_) hj
    exact parseUnary_primary fun operator _ => by cases operator <;> exact nofun
  | name ident hne =>
    intro depth j _ _ hj
    refine readsAt_of_unary (fun rest => ?_) hj
    rw [Tree.denote]
    exact (parseUnary_primary fun operator _ => by cases operator <;> exact nofun).trans
      (parsePrimary_name names _ hne rest)
  | unary operator _ ih =>
    intro depth j hdepth _ hj
    refine readsAt_of_unary (fun rest => ?_) hj
    have hoperand := ih depth unaryLevel (Nat.le_of_succ_le hdepth) (Nat.le_refl _) (Nat.le_refl _) rest
      fun other _ _ => by cases other <;> simp [Operator.level, unaryLevel]
    change parseUnary _ _ _ = _ at hoperand
    rw [List.cons_append, parseUnary_operator, hoperand, Tree.denote]
    simp only [goOn_unary]
    cases Tree.denote names _ <;> rfl
  | binary hlevel _ _ ihleft ihright =>
    intro depth j hdepth hj hten
    rename_i operator lhs rhs left right hl hr
    rw [List.length_append, List.length_cons] at hdepth
    have hoperator : operator.level + 1 ≤ unaryLevel := by cases operator <;> simp [Operator.level, unaryLevel]
    exact (readsAt_binary (parseNested_shortens depth)
      (ihleft depth operator.level (by omega) (Nat.le_refl _) (Nat.le_of_succ_le hoperator))
      (ihright depth (operator.level + 1) (by omega) (Nat.le_refl _) hoperator)).below
        (Nat.le_of_succ_le hoperator) (Nat.le_trans hj hlevel)
  | paren _ ih =>
    intro depth j hdepth _ hj
    obtain ⟨depth, rfl⟩ : ∃ n, depth = n + 1 := Nat.exists_eq_add_of_le' (Nat.le_trans (Nat.le_add_left 1 _) hdepth)
    refine readsAt_of_unary (fun rest => ?_) hj
    have hinner := ih depth 0 (by simp at hdepth; omega) (Nat.zero_le _) (Nat.zero_le _) (.rParen :: rest)
      fun _ _ heq => nomatch heq
    rw [← parseNested_succ] at hinner
    rw [List.cons_append, List.cons_append, List.append_assoc,
      parseUnary_primary fun operator _ => by cases operator <;> exact nofun]
    refine parsePrimary_paren names _ (hinner.trans ?_)
    cases Tree.denote names _ with
    | error fault => rfl
    | ok value => exact levelLoop_stop _ _ fun _ _ heq => nomatch heq

theorem Prints.parseTokens_eq {tree : Tree} {tokens : List ScanPpToken} (h : Prints 0 tree tokens) :
    parseTokens names tokens = tree.denote names := by
  have hread := h.readsAt names tokens.length 0 (Nat.le_refl _) (Nat.le_refl _) (Nat.zero_le _) []
    fun _ _ heq => nomatch heq
  rw [List.append_nil, ← parseNested_succ] at hread
  have hwhole : parseNested names (tokens.length + 1) tokens = (tree.denote names).map (·, []) := by
    rw [hread]
    cases tree.denote names with
    | error fault => rfl
    | ok value => exact levelLoop_stop _ _ fun _ _ heq => nomatch heq
  simp only [parseTokens, hwhole]
  cases tree.denote names <;> rfl

-- ---------------------------------------------------------------------------
-- What is parsed is a printed tree
-- ---------------------------------------------------------------------------

theorem Prints.of_le {k j : Nat} {tree : Tree} {tokens : List ScanPpToken} (h : Prints k tree tokens) (hj : j ≤ k) :
    Prints j tree tokens := by
  cases h with
  | number text => exact .number text
  | defined ident => exact .defined ident
  | definedParen ident => exact .definedParen ident
  | name ident hne => exact .name ident hne
  | unary operator hoperand => exact .unary operator hoperand
  | binary hlevel hleft hright => exact .binary (Nat.le_trans hj hlevel) hleft hright
  | paren hinner => exact .paren hinner

/-- A value comes from the tokens of a tree with this value. -/
def Understands (names : Names) (k : Nat) (parser : List ScanPpToken → Reading) : Prop :=
  ∀ tokens value rest, parser tokens = .ok (value, rest) →
    ∃ tree consumed, tokens = consumed ++ rest ∧ Prints k tree consumed ∧ tree.denote names = .ok value

theorem parsePrimary_understands (k : Nat) (h : Understands names 0 parenthesized) :
    Understands names k (parsePrimary names parenthesized) := by
  intro tokens value rest heq
  unfold parsePrimary at heq
  split at heq
  · split at heq
    · rename_i hparsed
      obtain ⟨rfl, rfl⟩ := Prod.mk.inj (Except.ok.inj heq)
      obtain ⟨tree, consumed, rfl, hprints, hvalue⟩ := h _ _ _ hparsed
      exact ⟨tree, .lParen :: consumed ++ [.rParen], by simp, .paren hprints, hvalue⟩
    · cases heq
    · cases heq
  · rename_i text tokens
    split at heq
    · rename_i hdefined
      subst hdefined
      split at heq
      · obtain ⟨rfl, rfl⟩ := Prod.mk.inj (Except.ok.inj heq)
        exact ⟨_, _, rfl, .defined _, rfl⟩
      · obtain ⟨rfl, rfl⟩ := Prod.mk.inj (Except.ok.inj heq)
        exact ⟨_, _, rfl, .definedParen _, rfl⟩
      · cases heq
    · rename_i hname
      obtain ⟨found, hfound, hpure⟩ := bind_eq_ok heq
      obtain ⟨rfl, rfl⟩ := Prod.mk.inj (Except.ok.inj hpure)
      exact ⟨.name text, [.identifier text], rfl, .name text hname, hfound⟩
  · rename_i text tokens
    obtain ⟨found, hfound, hpure⟩ := bind_eq_ok heq
    obtain ⟨rfl, rfl⟩ := Prod.mk.inj (Except.ok.inj hpure)
    exact ⟨.number text, [.number text], rfl, .number text, hfound⟩
  · cases heq

theorem parseUnary_understands (k : Nat) (h : Understands names 0 parenthesized) :
    Understands names k (parseUnary names parenthesized) := by
  intro tokens
  induction tokens generalizing k with
  | nil => exact fun value rest heq => parsePrimary_understands k h [] value rest heq
  | cons token tokens ih =>
    intro value rest heq
    by_cases hunary : ∃ operator : UnaryOperator, token = operator.token
    · obtain ⟨operator, rfl⟩ := hunary
      rw [parseUnary_operator] at heq
      obtain ⟨⟨operand, behind⟩, hoperand, hmap⟩ := bind_eq_ok heq
      obtain ⟨result, happly, hpair⟩ := map_eq_ok hmap
      obtain ⟨rfl, rfl⟩ := Prod.mk.inj hpair
      obtain ⟨tree, consumed, rfl, hprints, hvalue⟩ := ih unaryLevel _ _ hoperand
      refine ⟨.unary operator tree, operator.token :: consumed, rfl, .unary operator hprints, ?_⟩
      rw [Tree.denote, hvalue]
      exact happly
    · rw [parseUnary_primary fun operator behind hcons => hunary ⟨operator, (List.cons.inj hcons).1⟩] at heq
      exact parsePrimary_understands k h _ _ _ heq

/-- The turns of a level put the trees they read to the right of the tree so far. -/
theorem levelLoop_understands {k : Nat} (h : Understands names (k + 1) operand) (turns : Nat) :
    ∀ (lhs : Int) (tree : Tree) (left tokens : List ScanPpToken) (value : Int) (rest : List ScanPpToken),
      Prints k tree left → tree.denote names = .ok lhs →
      levelLoop (operatorsOf k) operand turns lhs tokens = .ok (value, rest) →
      ∃ tree consumed, tokens = consumed ++ rest ∧ Prints k tree (left ++ consumed) ∧ tree.denote names = .ok value := by
  induction turns with
  | zero =>
    intro lhs tree left tokens value rest hprints hlhs heq
    obtain ⟨rfl, rfl⟩ := Prod.mk.inj (Except.ok.inj heq)
    exact ⟨tree, [], rfl, by rwa [List.append_nil], hlhs⟩
  | succ turns ih =>
    intro lhs tree left tokens value rest hprints hlhs heq
    obtain hstop | ⟨operator, behind, rfl, hmem⟩ := levelLoop_cases (operatorsOf k) tokens
    · rw [levelLoop_stop _ _ hstop] at heq
      obtain ⟨rfl, rfl⟩ := Prod.mk.inj (Except.ok.inj heq)
      exact ⟨tree, [], rfl, by rwa [List.append_nil], hlhs⟩
    · rw [levelLoop_turn _ _ hmem] at heq
      obtain rfl := mem_operatorsOf.mp hmem
      obtain ⟨⟨rhs, after⟩, hoperand, hgo⟩ := bind_eq_ok heq
      obtain ⟨next, happly, hloop⟩ := bind_eq_ok hgo
      obtain ⟨right, rtokens, rfl, hright, hrhs⟩ := h _ _ _ hoperand
      have hdenote : (Tree.binary operator tree right).denote names = .ok next := by
        rw [Tree.denote, hlhs, hrhs]
        exact happly
      obtain ⟨whole, consumed, rfl, hwhole, hvalue⟩ := ih next (.binary operator tree right)
        (left ++ .op operator :: rtokens) after value rest (.binary (Nat.le_refl _) hprints hright)
        hdenote hloop
      exact ⟨whole, .op operator :: rtokens ++ consumed, by simp, by simpa using hwhole, hvalue⟩

theorem parseAt_understands (h : Understands names 0 parenthesized) (k : Nat) (hk : k ≤ unaryLevel) :
    Understands names k (parseAt names parenthesized k) := by
  induction hk using Nat.decreasingInduction with
  | self => exact parseUnary_understands unaryLevel h
  | of_succ k hk ih =>
    intro tokens value rest heq
    rw [parseAt_level names parenthesized hk] at heq
    obtain ⟨⟨lhs, behind⟩, hoperand, hloop⟩ := bind_eq_ok heq
    obtain ⟨tree, left, rfl, hprints, hlhs⟩ := ih _ _ _ hoperand
    obtain ⟨whole, consumed, rfl, hwhole, hvalue⟩ :=
      levelLoop_understands ih _ lhs tree left behind value rest (hprints.of_le (Nat.le_succ k)) hlhs hloop
    exact ⟨whole, left ++ consumed, (List.append_assoc ..).symm, hwhole, hvalue⟩

theorem parseNested_understands (depth : Nat) : Understands names 0 (parseNested names depth) := by
  induction depth with
  | zero => exact fun _ _ _ heq => nomatch heq
  | succ depth ih => exact parseAt_understands ih 0 (Nat.zero_le _)

/-- The parser has a value exactly for the tokens of a tree with this value. -/
theorem parseTokens_eq_ok {tokens : List ScanPpToken} {value : Int} :
    parseTokens names tokens = .ok value ↔ ∃ tree, Prints 0 tree tokens ∧ tree.denote names = .ok value := by
  constructor
  · intro h
    unfold parseTokens at h
    split at h
    · rename_i hparsed
      obtain rfl := Except.ok.inj h
      obtain ⟨tree, consumed, rfl, hprints, hvalue⟩ := parseNested_understands _ _ _ _ hparsed
      exact ⟨tree, by rwa [List.append_nil], hvalue⟩
    · cases h
    · cases h
  · rintro ⟨tree, hprints, hvalue⟩
    rw [hprints.parseTokens_eq, hvalue]

end Gentest.Scan
