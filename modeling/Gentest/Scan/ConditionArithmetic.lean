import Gentest.Scan.ConditionMeaning
import Gentest.Scan.CppConditions

/-!
# Arithmetic of conditions

The evaluator has the value of a condition in which nothing is skipped, and performs an
operation without a result in range exactly when the reading from left to right runs
into one. From this follows when its arithmetic is defined and its answer that of C++.
-/

namespace Gentest.Scan

open CppLiteral (IntegerLiteral)
open LongLong (Fault InRange)

variable {names : Names} {parenthesized operand : List ScanPpToken → Reading}
  {means : List Char → Int → Prop} {breaking : List Char → Prop}

-- ---------------------------------------------------------------------------
-- Values
-- ---------------------------------------------------------------------------

theorem Prints.denote_eq_ok (hmeans : ∀ ident value, names.value ident = .ok value ↔ means ident value) {k : Nat}
    {tree : Tree} {tokens : List ScanPpToken} (h : Prints k tree tokens) (hwell : ∀ token ∈ tokens, token.WellFormed)
    {value : Int} : tree.denote names = .ok value ↔ Evaluates False names.contains means tree value := by
  induction h generalizing value with
  | number text =>
    refine (literal_eq_ok (number_head (hwell _ List.mem_cons_self))).trans ⟨?_, ?_⟩
    · rintro ⟨n, hnumber, hrange, rfl⟩
      exact .number hnumber hrange
    · rintro (⟨hnumber, hrange⟩ | _)
      exact ⟨_, hnumber, hrange, rfl⟩
  | defined ident | definedParen ident =>
    constructor
    · intro heq
      obtain rfl := Except.ok.inj heq
      exact .defined ident
    · rintro ⟨⟩
      rfl
  | name ident hne =>
    refine (hmeans ident value).trans ⟨.name, ?_⟩
    rintro ⟨⟩
    assumption
  | unary operator _ ih =>
    have hrest := @ih fun token htoken => hwell token (List.mem_cons_of_mem _ htoken)
    constructor
    · intro heq
      obtain ⟨inner, hinner, happly⟩ := bind_eq_ok heq
      exact .unary (hrest.mp hinner) happly
    · intro heval
      cases heval with
      | unary hinner happly =>
        rw [Tree.denote, hrest.mpr hinner]
        exact happly
  | binary _ _ _ ihleft ihright =>
    have hleft := @ihleft fun token htoken => hwell token (List.mem_append_left _ htoken)
    have hright := @ihright fun token htoken => hwell token (List.mem_append_right _ (List.mem_cons_of_mem _ htoken))
    constructor
    · intro heq
      obtain ⟨lhs, hlhs, hbind⟩ := bind_eq_ok heq
      obtain ⟨rhs, hrhs, happly⟩ := bind_eq_ok hbind
      exact .binary (hleft.mp hlhs) (hright.mp hrhs) happly
    · intro heval
      cases heval with
      | binary hlhs hrhs happly =>
        rw [Tree.denote, hleft.mpr hlhs, hright.mpr hrhs]
        exact happly
      | skipOr hskips => exact hskips.elim
      | skipAnd hskips => exact hskips.elim
  | paren _ ih => exact ih fun token htoken => hwell token (by simp [htoken])

-- ---------------------------------------------------------------------------
-- What is left
-- ---------------------------------------------------------------------------

/-- What is left does not go on with an operator of the level or of one above. -/
def Stops (k : Nat) (rest : List ScanPpToken) : Prop :=
  ∀ operator behind, rest = .op operator :: behind → operator.level < k

theorem Stops.stopsAbove {k : Nat} {rest : List ScanPpToken} (h : Stops (k + 1) rest) : StopsAbove k rest :=
  fun operator behind heq => Nat.le_of_lt_succ (h operator behind heq)

theorem levelLoop_stops {k : Nat} (hshort : Shortens operand)
    (hstops : ∀ tokens value rest, operand tokens = .ok (value, rest) → Stops (k + 1) rest) (turns : Nat) :
    ∀ (lhs value : Int) (tokens rest : List ScanPpToken), tokens.length ≤ turns → Stops (k + 1) tokens →
      levelLoop (operatorsOf k) operand turns lhs tokens = .ok (value, rest) → Stops k rest := by
  induction turns with
  | zero =>
    intro lhs value tokens rest hlength _ heq
    obtain rfl := List.length_eq_zero_iff.mp (Nat.le_zero.mp hlength)
    obtain ⟨-, rfl⟩ := Prod.mk.inj (Except.ok.inj heq)
    exact fun _ _ h => nomatch h
  | succ turns ih =>
    intro lhs value tokens rest hlength hbelow heq
    obtain hstop | ⟨operator, behind, rfl, hmem⟩ := levelLoop_cases (operatorsOf k) tokens
    · rw [levelLoop_stop _ _ hstop] at heq
      obtain ⟨-, rfl⟩ := Prod.mk.inj (Except.ok.inj heq)
      intro operator behind hcons
      have hne : operator.level ≠ k := fun hlevel => hstop operator behind hcons (mem_operatorsOf.mpr hlevel)
      have hlt := hbelow operator behind hcons
      omega
    · rw [levelLoop_turn _ _ hmem] at heq
      obtain ⟨⟨rhs, after⟩, hoperand, hgo⟩ := bind_eq_ok heq
      obtain ⟨next, -, hloop⟩ := bind_eq_ok hgo
      have hafter := hshort _ _ _ hoperand
      rw [List.length_cons] at hlength
      exact ih _ _ _ _ (by omega) (hstops _ _ _ hoperand) hloop

theorem parseAt_stops (hshort : Shortens parenthesized) (k : Nat) (hk : k ≤ unaryLevel) (tokens : List ScanPpToken)
    (value : Int) (rest : List ScanPpToken) (h : parseAt names parenthesized k tokens = .ok (value, rest)) :
    Stops k rest := by
  induction hk using Nat.decreasingInduction generalizing tokens value rest with
  | self =>
    intro operator _ _
    cases operator <;> simp [Operator.level, unaryLevel]
  | of_succ k hk ih =>
    rw [parseAt_level names parenthesized hk] at h
    obtain ⟨⟨lhs, behind⟩, hoperand, hloop⟩ := bind_eq_ok h
    exact levelLoop_stops (parseAt_shortens hshort (k + 1)) ih _ _ _ _ _ (Nat.le_refl _) (ih _ _ _ hoperand) hloop

-- ---------------------------------------------------------------------------
-- Undefined operations are overflows
-- ---------------------------------------------------------------------------

theorem bind_eq_error {ε α β : Type} {x : Except ε α} {f : α → Except ε β} {e : ε} (h : x.bind f = .error e) :
    x = .error e ∨ ∃ a, x = .ok a ∧ f a = .error e := by
  cases x with
  | error e => exact .inl (congrArg Except.error (Except.error.inj h))
  | ok a => exact .inr ⟨a, rfl, h⟩

theorem map_eq_error {ε α β : Type} {x : Except ε α} {f : α → β} {e : ε} (h : x.map f = .error e) : x = .error e := by
  cases x with
  | error e => exact congrArg Except.error (Except.error.inj h)
  | ok a => cases h

theorem Breaks.of_le {fault : Fault} {isDefined : List Char → Bool} {literal : List Char → Prop} {k j : Nat}
    {tokens : List ScanPpToken} (h : Breaks fault isDefined means literal breaking k tokens) (hj : j ≤ k) :
    Breaks fault isDefined means literal breaking j tokens := by
  cases h with
  | number hliteral => exact .number hliteral
  | name hne hbreaking => exact .name hne hbreaking
  | paren hinner => exact .paren hinner
  | operand operator hoperand => exact .operand operator hoperand
  | unary operator hprints hvalue happly => exact .unary operator hprints hvalue happly
  | right hlevel hprints hvalue hbehind => exact .right (Nat.le_trans hj hlevel) hprints hvalue hbehind
  | binary hlevel hleft hlhs hright hrhs happly hstop =>
    exact .binary (Nat.le_trans hj hlevel) hleft hlhs hright hrhs happly hstop

section

variable (names means breaking)

/-- An undefined operation of the parser is an overflow of its tokens. -/
def RunsInto (k : Nat) (parser : List ScanPpToken → Reading) : Prop :=
  ∀ tokens, (∀ token ∈ tokens, token.WellFormed) → parser tokens = .error .undefined →
    Breaks .undefined names.contains means IsTooLarge breaking k tokens

end

section

variable (hmeans : ∀ ident value, names.value ident = .ok value ↔ means ident value)
  (hover : ∀ ident, names.value ident = .error .undefined ↔ breaking ident)

include hover

theorem parsePrimary_runsInto (k : Nat) (h : RunsInto names means breaking 0 parenthesized) :
    RunsInto names means breaking k (parsePrimary names parenthesized) := by
  intro tokens hwell heq
  unfold parsePrimary at heq
  split at heq
  · split at heq
    · cases heq
    · cases heq
    · rename_i hinner
      obtain rfl := Except.error.inj heq
      exact .paren (h _ (fun token htoken => hwell token (List.mem_cons_of_mem _ htoken)) hinner)
  · split at heq
    · split at heq <;> cases heq
    · rename_i hname
      obtain hvalue | ⟨_, -, hpure⟩ := bind_eq_error heq
      · exact .name hname ((hover _).mp hvalue)
      · cases hpure
  · obtain hvalue | ⟨_, -, hpure⟩ := bind_eq_error heq
    · exact .number ((literal_undefined (number_head (hwell _ List.mem_cons_self))).mp hvalue)
    · cases hpure
  · cases heq

include hmeans

theorem parseUnary_runsInto (k : Nat) (hunderstands : Understands names 0 parenthesized)
    (h : RunsInto names means breaking 0 parenthesized) :
    RunsInto names means breaking k (parseUnary names parenthesized) := by
  intro tokens
  induction tokens generalizing k with
  | nil => exact fun hwell heq => parsePrimary_runsInto hover k h [] hwell heq
  | cons token tokens ih =>
    intro hwell heq
    have hrest := fun token htoken => hwell token (List.mem_cons_of_mem _ htoken)
    by_cases hunary : ∃ operator : UnaryOperator, token = operator.token
    · obtain ⟨operator, rfl⟩ := hunary
      rw [parseUnary_operator] at heq
      obtain hoperand | ⟨⟨value, behind⟩, hoperand, hmap⟩ := bind_eq_error heq
      · exact .operand operator (ih unaryLevel hrest hoperand)
      · obtain ⟨tree, front, rfl, hprints, hvalue⟩ := parseUnary_understands unaryLevel hunderstands _ _ _ hoperand
        have hfront := fun token htoken => hrest token (List.mem_append_left _ htoken)
        exact .unary operator hprints ((hprints.denote_eq_ok hmeans hfront).mp hvalue) (map_eq_error hmap)
    · rw [parseUnary_primary fun operator behind hcons => hunary ⟨operator, (List.cons.inj hcons).1⟩] at heq
      exact parsePrimary_runsInto hover k h _ hwell heq

omit hover in
theorem levelLoop_runsInto {k : Nat} (hunderstands : Understands names (k + 1) operand)
    (hstops : ∀ tokens value rest, operand tokens = .ok (value, rest) → Stops (k + 1) rest)
    (h : RunsInto names means breaking (k + 1) operand) (turns : Nat) :
    ∀ (lhs : Int) (tree : Tree) (left tokens : List ScanPpToken), Prints k tree left → tree.denote names = .ok lhs →
      (∀ token ∈ left ++ tokens, token.WellFormed) →
      levelLoop (operatorsOf k) operand turns lhs tokens = .error .undefined →
      Breaks .undefined names.contains means IsTooLarge breaking k (left ++ tokens) := by
  induction turns with
  | zero => exact fun _ _ _ _ _ _ _ heq => nomatch heq
  | succ turns ih =>
    intro lhs tree left tokens hprints hlhs hwell heq
    obtain hstop | ⟨operator, behind, rfl, hmem⟩ := levelLoop_cases (operatorsOf k) tokens
    · rw [levelLoop_stop _ _ hstop] at heq
      cases heq
    · rw [levelLoop_turn _ _ hmem] at heq
      obtain rfl := mem_operatorsOf.mp hmem
      have hleft := fun token htoken => hwell token (List.mem_append_left _ htoken)
      have hbehind := fun token htoken =>
        hwell token (List.mem_append_right _ (List.mem_cons_of_mem _ htoken))
      have hvalue := (hprints.denote_eq_ok hmeans hleft).mp hlhs
      obtain hoperand | ⟨⟨rhs, after⟩, hoperand, hgo⟩ := bind_eq_error heq
      · exact .right (Nat.le_refl _) hprints hvalue (h _ hbehind hoperand)
      · obtain ⟨right, rtokens, rfl, hright, hrhs⟩ := hunderstands _ _ _ hoperand
        have hrtokens := fun token htoken => hbehind token (List.mem_append_left _ htoken)
        obtain happly | ⟨next, happly, hloop⟩ := bind_eq_error hgo
        · exact .binary (Nat.le_refl _) hprints hvalue hright ((hright.denote_eq_ok hmeans hrtokens).mp hrhs) happly
            (hstops _ _ _ hoperand).stopsAbove
        · have hdenote : (Tree.binary operator tree right).denote names = .ok next := by
            rw [Tree.denote, hlhs, hrhs]
            exact happly
          have hmore := ih next (.binary operator tree right) (left ++ .op operator :: rtokens) after
            (.binary (Nat.le_refl _) hprints hright) hdenote (by simpa using hwell) hloop
          simpa using hmore

theorem parseAt_runsInto (hshort : Shortens parenthesized) (hunderstands : Understands names 0 parenthesized)
    (h : RunsInto names means breaking 0 parenthesized) (k : Nat) (hk : k ≤ unaryLevel) :
    RunsInto names means breaking k (parseAt names parenthesized k) := by
  induction hk using Nat.decreasingInduction with
  | self => exact parseUnary_runsInto hmeans hover unaryLevel hunderstands h
  | of_succ k hk ih =>
    intro tokens hwell heq
    rw [parseAt_level names parenthesized hk] at heq
    obtain hoperand | ⟨⟨lhs, behind⟩, hoperand, hloop⟩ := bind_eq_error heq
    · exact (ih tokens hwell hoperand).of_le (Nat.le_succ k)
    · have hinner := parseAt_understands hunderstands (k + 1) hk
      obtain ⟨tree, left, rfl, hprints, hlhs⟩ := hinner _ _ _ hoperand
      exact levelLoop_runsInto hmeans hinner (parseAt_stops hshort (k + 1) hk) ih _ lhs tree left behind
        (hprints.of_le (Nat.le_succ k)) hlhs hwell hloop

theorem parseNested_runsInto (depth : Nat) : RunsInto names means breaking 0 (parseNested names depth) := by
  induction depth with
  | zero => exact fun _ _ heq => nomatch heq
  | succ depth ih =>
    exact parseAt_runsInto hmeans hover (parseNested_shortens depth) (parseNested_understands depth) ih 0 (Nat.zero_le _)

-- ---------------------------------------------------------------------------
-- Overflows are undefined operations
-- ---------------------------------------------------------------------------

omit hmeans hover in
theorem parseAt_error {k j : Nat} {tokens : List ScanPpToken} {fault : Fault} (hk : k ≤ unaryLevel) (hj : j ≤ k)
    (h : parseAt names parenthesized k tokens = .error fault) : parseAt names parenthesized j tokens = .error fault := by
  induction hj using Nat.decreasingInduction with
  | self => exact h
  | of_succ j hj ih =>
    rw [parseAt_level names parenthesized (Nat.lt_of_lt_of_le hj hk), parseLevel, ih]
    rfl

omit hmeans hover in
/-- Behind a left operand and an operator of its level the right operand is read. -/
theorem parseAt_operand {operator : Operator} {lhs : Tree} {left behind : List ScanPpToken} {value : Int} {depth : Nat}
    (hprints : Prints operator.level lhs left) (hlhs : lhs.denote names = .ok value) (hdepth : left.length ≤ depth) :
    parseAt names (parseNested names depth) operator.level (left ++ .op operator :: behind) =
      (parseAt names (parseNested names depth) (operator.level + 1) behind).bind fun (rhs, rest) =>
        (operator.apply value rhs).bind fun next =>
          levelLoop (operatorsOf operator.level) (parseAt names (parseNested names depth) (operator.level + 1))
            behind.length next rest := by
  have hlevel : operator.level ≤ unaryLevel := by cases operator <;> simp [Operator.level, unaryLevel]
  have hread := hprints.readsAt names depth operator.level hdepth (Nat.le_refl _) hlevel (.op operator :: behind)
    fun other _ heq => by
      obtain rfl := ScanPpToken.op.inj (List.cons.inj heq).1
      exact Nat.le_refl _
  rw [hread, hlhs]
  exact levelLoop_turn _ _ (mem_operatorsOf.mpr rfl) _

omit hover in
theorem Breaks.parseAt_error {fault : Fault} {literal : List Char → Prop} {k : Nat} {tokens : List ScanPpToken}
    (hliteral : ∀ text, text.head?.any Char.isDigit = true → literal text → parseScanIntegerLiteral text = .error fault)
    (hbreaking : ∀ ident, breaking ident → names.value ident = .error fault)
    (h : Breaks fault names.contains means literal breaking k tokens) (hwell : ∀ token ∈ tokens, token.WellFormed) :
    ∀ depth j, tokens.length ≤ depth → j ≤ k → j ≤ unaryLevel →
      parseAt names (parseNested names depth) j tokens = .error fault := by
  induction h with
  | number hgives =>
    intro depth j _ _ hj
    refine Scan.parseAt_error (Nat.le_refl unaryLevel) hj ?_
    refine (parseUnary_primary fun operator _ => by cases operator <;> exact nofun).trans ?_
    rw [parsePrimary_number, hliteral _ (number_head (hwell _ List.mem_cons_self)) hgives]
    rfl
  | name hne hgives =>
    intro depth j _ _ hj
    refine Scan.parseAt_error (Nat.le_refl unaryLevel) hj ?_
    refine (parseUnary_primary fun operator _ => by cases operator <;> exact nofun).trans ?_
    rw [parsePrimary_name names _ hne, hbreaking _ hgives]
    rfl
  | paren _ ih =>
    intro depth j hdepth _ hj
    obtain ⟨depth, rfl⟩ : ∃ n, depth = n + 1 := Nat.exists_eq_add_of_le' (Nat.le_trans (Nat.le_add_left 1 _) hdepth)
    have hinner := ih (fun token htoken => hwell token (List.mem_cons_of_mem _ htoken)) depth 0
      (Nat.le_of_succ_le_succ hdepth) (Nat.le_refl _) (Nat.zero_le _)
    rw [← parseNested_succ] at hinner
    refine Scan.parseAt_error (Nat.le_refl unaryLevel) hj ?_
    refine (parseUnary_primary fun operator _ => by cases operator <;> exact nofun).trans ?_
    simp only [parsePrimary, hinner]
  | operand operator _ ih =>
    intro depth j hdepth _ hj
    have hoperand := ih (fun token htoken => hwell token (List.mem_cons_of_mem _ htoken)) depth unaryLevel
      (Nat.le_of_succ_le hdepth) (Nat.le_refl _) (Nat.le_refl _)
    refine Scan.parseAt_error (Nat.le_refl unaryLevel) hj ?_
    change parseUnary _ _ _ = _ at hoperand ⊢
    rw [parseUnary_operator, hoperand]
    rfl
  | @unary k tree front value rest operator hprints hvalue happly =>
    intro depth j hdepth _ hj
    have hfront := fun token htoken => hwell token (List.mem_cons_of_mem _ (List.mem_append_left _ htoken))
    rw [List.length_cons, List.length_append] at hdepth
    have hread := hprints.readsAt names depth unaryLevel (by omega) (Nat.le_refl _) (Nat.le_refl _) rest
      fun other _ _ => by cases other <;> simp [Operator.level, unaryLevel]
    rw [(hprints.denote_eq_ok hmeans hfront).mpr hvalue] at hread
    refine Scan.parseAt_error (Nat.le_refl unaryLevel) hj ?_
    change parseUnary _ _ _ = goOn _ _ _ _ _ at hread
    change parseUnary _ _ _ = _
    rw [parseUnary_operator, hread, goOn_unary]
    simp only [Except.bind, happly]
    rfl
  | @right k operator lhs left value behind hlevel hprints hvalue _ ih =>
    intro depth j hdepth hj _
    have hleft := fun token htoken => hwell token (List.mem_append_left _ htoken)
    have hbehind := fun token htoken => hwell token (List.mem_append_right _ (List.mem_cons_of_mem _ htoken))
    have hoperator : operator.level + 1 ≤ unaryLevel := by cases operator <;> simp [Operator.level, unaryLevel]
    rw [List.length_append, List.length_cons] at hdepth
    refine Scan.parseAt_error (Nat.le_of_succ_le hoperator) (Nat.le_trans hj hlevel) ?_
    rw [parseAt_operand hprints ((hprints.denote_eq_ok hmeans hleft).mpr hvalue) (by omega),
      ih hbehind depth (operator.level + 1) (by omega) (Nat.le_refl _) hoperator]
    rfl
  | @binary k operator lhs rhs left right value value' rest hlevel hprints hlhs hright hrhs happly hstop =>
    intro depth j hdepth hj _
    have hleft := fun token htoken => hwell token (List.mem_append_left _ htoken)
    have hrtokens := fun token htoken =>
      hwell token (List.mem_append_right _ (List.mem_cons_of_mem _ (List.mem_append_left _ htoken)))
    have hoperator : operator.level + 1 ≤ unaryLevel := by cases operator <;> simp [Operator.level, unaryLevel]
    simp only [List.length_append, List.length_cons] at hdepth
    have hread := hright.readsAt names depth (operator.level + 1) (by omega) (Nat.le_refl _) hoperator rest
      fun other behind heq => Nat.le_succ_of_le (hstop other behind heq)
    rw [(hright.denote_eq_ok hmeans hrtokens).mpr hrhs] at hread
    refine Scan.parseAt_error (Nat.le_of_succ_le hoperator) (Nat.le_trans hj hlevel) ?_
    rw [parseAt_operand hprints ((hprints.denote_eq_ok hmeans hleft).mpr hlhs) (by omega), hread]
    simp only [Except.bind, goOn_stop hstop (Nat.lt_succ_self _), happly]

omit hover in
theorem Breaks.parseTokens_error {fault : Fault} {literal : List Char → Prop} {tokens : List ScanPpToken}
    (hliteral : ∀ text, text.head?.any Char.isDigit = true → literal text → parseScanIntegerLiteral text = .error fault)
    (hbreaking : ∀ ident, breaking ident → names.value ident = .error fault)
    (h : Breaks fault names.contains means literal breaking 0 tokens) (hwell : ∀ token ∈ tokens, token.WellFormed) :
    parseTokens names tokens = .error fault := by
  have hparsed := h.parseAt_error hmeans hliteral hbreaking hwell tokens.length 0 (Nat.le_refl _) (Nat.le_refl _)
    (Nat.zero_le _)
  rw [← parseNested_succ] at hparsed
  rw [parseTokens, hparsed]

/-- The parser performs an undefined operation exactly where the tokens overflow. -/
theorem parseTokens_undefined {tokens : List ScanPpToken} (hwell : ∀ token ∈ tokens, token.WellFormed) :
    parseTokens names tokens = .error .undefined ↔ Breaks .undefined names.contains means IsTooLarge breaking 0 tokens := by
  constructor
  · intro heq
    unfold parseTokens at heq
    split at heq
    · cases heq
    · cases heq
    · rename_i hparsed
      obtain rfl := Except.error.inj heq
      exact parseNested_runsInto hmeans hover _ tokens hwell hparsed
  · exact fun h => h.parseTokens_error hmeans (fun _ hhead => (literal_undefined hhead).mpr) (fun ident => (hover ident).mpr)
      hwell

end

-- ---------------------------------------------------------------------------
-- Macros
-- ---------------------------------------------------------------------------

/-- The parser has a value exactly when the tokens print a tree with this value. -/
theorem parseTokens_means (hmeans : ∀ ident value, names.value ident = .ok value ↔ means ident value)
    {tokens : List ScanPpToken} (hwell : ∀ token ∈ tokens, token.WellFormed) {value : Int} :
    parseTokens names tokens = .ok value ↔
      ∃ tree, Prints 0 tree tokens ∧ Evaluates False names.contains means tree value := by
  rw [parseTokens_eq_ok]
  refine exists_congr fun tree => and_congr_right fun hprints => ?_
  exact hprints.denote_eq_ok hmeans hwell

theorem macroValue_eq_ok {macros : MacroTable} {nested : List Char → Except Fault Int} {meansText : List Char → Int → Prop}
    (h : ∀ text value, nested text = .ok value ↔ meansText text value) (ident : List Char) (value : Int) :
    macroValue macros nested ident = .ok value ↔ NameMeans macros meansText ident value := by
  unfold macroValue NameMeans
  cases macros ident with
  | none => exact ⟨fun heq => (Except.ok.inj heq).symm, fun heq => congrArg Except.ok heq.symm⟩
  | some text =>
    dsimp only
    split
    · exact ⟨fun heq => (Except.ok.inj heq).symm, fun heq => congrArg Except.ok heq.symm⟩
    · exact h _ value

theorem macroValue_undefined {macros : MacroTable} {nested : List Char → Except Fault Int} {overflows : List Char → Prop}
    (h : ∀ text, nested text = .error .undefined ↔ overflows text) (ident : List Char) :
    macroValue macros nested ident = .error .undefined ↔
      ∃ value, macros ident = some value ∧ (trimAsciiView value).isEmpty = false ∧ overflows (trimAsciiView value) := by
  unfold macroValue
  cases macros ident with
  | none => exact ⟨fun heq => (nomatch heq), fun ⟨_, heq, _⟩ => (nomatch heq)⟩
  | some text =>
    dsimp only
    split
    · rename_i hempty
      refine ⟨fun heq => (nomatch heq), ?_⟩
      rintro ⟨_, heq, hsome, -⟩
      obtain rfl := Option.some.inj heq
      rw [hempty] at hsome
      cases hsome
    · rename_i hsome
      rw [h]
      refine ⟨fun hover => ⟨text, rfl, Bool.eq_false_iff.mpr hsome, hover⟩, ?_⟩
      rintro ⟨_, heq, -, hover⟩
      obtain rfl := Option.some.inj heq
      exact hover

theorem parseText_means (hmeans : ∀ ident value, names.value ident = .ok value ↔ means ident value) (text : List Char)
    (value : Int) :
    parseText names text = .ok value ↔ ∃ tokens tree, tokenizeScanPreprocessorExpression text = some tokens ∧
      Prints 0 tree tokens ∧ Evaluates False names.contains means tree value := by
  unfold parseText
  cases htokens : tokenizeScanPreprocessorExpression text with
  | none => exact ⟨fun heq => (nomatch heq), fun ⟨_, _, heq, _⟩ => (nomatch heq)⟩
  | some tokens =>
    refine (parseTokens_means hmeans ((tokenize_iff.mp htokens).wellFormed)).trans ⟨?_, ?_⟩
    · rintro ⟨tree, hprints, hvalue⟩
      exact ⟨tokens, tree, rfl, hprints, hvalue⟩
    · rintro ⟨_, tree, heq, hprints, hvalue⟩
      obtain rfl := Option.some.inj heq
      exact ⟨tree, hprints, hvalue⟩

theorem parseText_undefined (hmeans : ∀ ident value, names.value ident = .ok value ↔ means ident value)
    (hover : ∀ ident, names.value ident = .error .undefined ↔ breaking ident) (text : List Char) :
    parseText names text = .error .undefined ↔ ∃ tokens, tokenizeScanPreprocessorExpression text = some tokens ∧
      Breaks .undefined names.contains means IsTooLarge breaking 0 tokens := by
  unfold parseText
  cases htokens : tokenizeScanPreprocessorExpression text with
  | none => exact ⟨fun heq => (nomatch heq), fun ⟨_, heq, _⟩ => (nomatch heq)⟩
  | some tokens =>
    refine (parseTokens_undefined hmeans hover ((tokenize_iff.mp htokens).wellFormed)).trans ⟨?_, ?_⟩
    · exact fun h => ⟨tokens, rfl, h⟩
    · rintro ⟨_, heq, h⟩
      obtain rfl := Option.some.inj heq
      exact h

theorem lastName_means (macros : MacroTable) (ident : List Char) (value : Int) :
    macroValue macros (fun _ => .error .unknown) ident = .ok value ↔ NameMeans macros (fun _ _ => False) ident value :=
  macroValue_eq_ok (fun _ _ => ⟨fun h => (nomatch h), False.elim⟩) ident value

theorem parseExpression_means (macros : MacroTable) (depth : Nat) :
    ∀ text value, parseExpression macros depth text = .ok value ↔ TextMeans False macros depth text value := by
  induction depth with
  | zero => exact @parseText_means (macroNames macros fun _ => .error .unknown) _ (lastName_means macros)
  | succ depth ih => exact @parseText_means (macroNames macros (parseExpression macros depth)) _ (macroValue_eq_ok ih)

theorem parseExpression_undefined (macros : MacroTable) (depth : Nat) :
    ∀ text, parseExpression macros depth text = .error .undefined ↔ TextOverflows macros depth text := by
  induction depth with
  | zero =>
    have hover : ∀ ident, macroValue macros (fun _ => .error .unknown) ident = .error .undefined ↔ False := fun ident =>
      ⟨fun h => by
        obtain ⟨_, _, _, hfalse⟩ := (@macroValue_undefined macros (fun _ => .error .unknown) (fun _ => False)
          (fun _ => ⟨fun h => (nomatch h), False.elim⟩) ident).mp h
        exact hfalse, False.elim⟩
    exact @parseText_undefined (macroNames macros fun _ => .error .unknown) _ _ (lastName_means macros) hover
  | succ depth ih =>
    exact @parseText_undefined (macroNames macros (parseExpression macros depth)) _ _
      (macroValue_eq_ok (parseExpression_means macros depth)) (macroValue_undefined ih)

-- ---------------------------------------------------------------------------
-- Skipped operands
-- ---------------------------------------------------------------------------

theorem LiteralNumber.unique {text : List Char} {n n' : Nat} (h : LiteralNumber text n) (h' : LiteralNumber text n')
    (hrange : InRange (n : Nat)) (hrange' : InRange (n' : Nat)) : n = n' := by
  obtain ⟨radix, digits, suffix, hspelling, rfl⟩ := h
  obtain ⟨radix', digits', suffix', hspelling', rfl⟩ := h'
  have heq := hspelling.parse.symm.trans hspelling'.parse
  rw [LongLong.checked_of_inRange hrange, LongLong.checked_of_inRange hrange'] at heq
  exact Int.ofNat_inj.mp (Except.ok.inj heq)

theorem Evaluates.unique {isDefined : List Char → Bool} {means' : List Char → Int → Prop}
    (hnames : ∀ ident value value', means ident value → means' ident value' → value = value') {tree : Tree} {value : Int}
    (h : Evaluates True isDefined means tree value) {value' : Int} (h' : Evaluates False isDefined means' tree value') :
    value = value' := by
  induction h generalizing value' with
  | number hnumber hrange =>
    cases h' with
    | number hnumber' hrange' => rw [hnumber.unique hnumber' hrange hrange']
  | defined ident =>
    cases h'
    rfl
  | name hmeans =>
    cases h' with
    | name hmeans' => exact hnames _ _ _ hmeans hmeans'
  | unary _ happly ih =>
    cases h' with
    | unary hinner happly' =>
      rw [ih hinner, happly'] at happly
      exact (Except.ok.inj happly).symm
  | binary _ _ happly ihleft ihright =>
    cases h' with
    | binary hleft hright happly' =>
      rw [ihleft hleft, ihright hright, happly'] at happly
      exact (Except.ok.inj happly).symm
    | skipOr hskips => exact hskips.elim
    | skipAnd hskips => exact hskips.elim
  | skipOr _ _ hne ih =>
    cases h' with
    | binary hleft hright happly =>
      rw [← ih hleft] at happly
      refine Eq.trans ?_ (Except.ok.inj happly)
      exact (if_pos (.inl hne)).symm
    | skipOr hskips => exact hskips.elim
  | skipAnd _ _ ih =>
    cases h' with
    | binary hleft hright happly =>
      rw [← ih hleft] at happly
      refine Eq.trans ?_ (Except.ok.inj happly)
      exact (if_neg fun hboth => hboth.1 rfl).symm
    | skipAnd hskips => exact hskips.elim

theorem NameMeans.unique {macros : MacroTable} {nested nested' : List Char → Int → Prop}
    (h : ∀ text value value', nested text value → nested' text value' → value = value') (ident : List Char)
    (value value' : Int) (hmeans : NameMeans macros nested ident value) (hmeans' : NameMeans macros nested' ident value') :
    value = value' := by
  unfold NameMeans at hmeans hmeans'
  cases hmacroDef : macros ident with
  | none =>
    rw [hmacroDef] at hmeans hmeans'
    exact hmeans.trans hmeans'.symm
  | some text =>
    rw [hmacroDef] at hmeans hmeans'
    dsimp only at hmeans hmeans'
    split at hmeans
    · rename_i hempty
      rw [if_pos hempty] at hmeans'
      exact hmeans.trans hmeans'.symm
    · rename_i hsome
      rw [if_neg hsome] at hmeans'
      exact h _ _ _ hmeans hmeans'

theorem TextMeans.unique (macros : MacroTable) (depth : Nat) :
    ∀ text value value', TextMeans True macros depth text value → TextMeans False macros depth text value' →
      value = value' := by
  -- both trees are printed by the same tokens, so the parser gives the value of either
  have hsame : ∀ (names : Names) (means : List Char → Int → Prop) text tokens tree value' tree',
      (∀ ident value, names.value ident = .ok value ↔ means ident value) →
      tokenizeScanPreprocessorExpression text = some tokens → Prints 0 tree tokens → Prints 0 tree' tokens →
      Evaluates False names.contains means tree' value' → Evaluates False names.contains means tree value' := by
    intro names means text tokens tree value' tree' hmeans htokens hprints hprints' hvalue
    have hwell := (tokenize_iff.mp htokens).wellFormed
    rw [← hprints'.denote_eq_ok hmeans hwell, ← hprints'.parseTokens_eq, hprints.parseTokens_eq] at hvalue
    exact (hprints.denote_eq_ok hmeans hwell).mp hvalue
  induction depth with
  | zero =>
    rintro text value value' ⟨tokens, tree, htokens, hprints, hvalue⟩ ⟨_, tree', htokens', hprints', hvalue'⟩
    obtain rfl := Option.some.inj (htokens.symm.trans htokens')
    exact hvalue.unique (NameMeans.unique fun _ _ _ h => h.elim) (hsame (macroNames macros fun _ => .error .unknown) _ text
      tokens tree value' tree' (lastName_means macros) htokens hprints hprints' hvalue')
  | succ depth ih =>
    rintro text value value' ⟨tokens, tree, htokens, hprints, hvalue⟩ ⟨_, tree', htokens', hprints', hvalue'⟩
    obtain rfl := Option.some.inj (htokens.symm.trans htokens')
    exact hvalue.unique (NameMeans.unique ih) (hsame (macroNames macros (parseExpression macros depth)) _ text
      tokens tree value' tree' (macroValue_eq_ok (parseExpression_means macros depth)) htokens hprints hprints' hvalue')

-- ---------------------------------------------------------------------------
-- Answers
-- ---------------------------------------------------------------------------

end Gentest.Scan
