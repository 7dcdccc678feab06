import Gentest.Scan.ExpressionTrees
import Gentest.Scan.HasInclude
import Mathlib.Data.List.Chain

/-!
# Spelled conditions

A condition spells its tokens with white space between them, at least where two of them
would be taken for one. Such a text has the tokens it spells. On the text of a tree
whose parts all have an exact value in range the evaluator answers whether the value is
not zero, and for no text whose tokens print no tree does it have an answer.
-/

namespace Gentest.Scan

open Gentest.Codegen (isSpace)
open LongLong (Fault InRange IsShift checked)

-- ---------------------------------------------------------------------------
-- Spelled tokens
-- ---------------------------------------------------------------------------

def Operator.text : Operator → List Char
  | .logicalOr => ['|', '|']
  | .logicalAnd => ['&', '&']
  | .bitOr => ['|']
  | .bitXor => ['^']
  | .bitAnd => ['&']
  | .equal => ['=', '=']
  | .notEqual => ['!', '=']
  | .less => ['<']
  | .lessEqual => ['<', '=']
  | .greater => ['>']
  | .greaterEqual => ['>', '=']
  | .shiftLeft => ['<', '<']
  | .shiftRight => ['>', '>']
  | .plus => ['+']
  | .minus => ['-']
  | .star => ['*']
  | .slash => ['/']
  | .percent => ['%']

namespace ScanPpToken

def text : ScanPpToken → List Char
  | identifier text => text
  | number text => text
  | lParen => ['(']
  | rParen => [')']
  | op operator => operator.text
  | not => ['!']
  | bitNot => ['~']

/-- The letter would be taken into the token in front of it. -/
def fuses : ScanPpToken → Char → Bool
  | identifier _, ch => isScanIdentifierContinue ch
  | number _, ch => isNumberContinue ch
  | op .bitOr, ch => ch == '|'
  | op .bitAnd, ch => ch == '&'
  | op .less, ch => ch == '<' || ch == '='
  | op .greater, ch => ch == '>' || ch == '='
  | not, ch => ch == '='
  | _, _ => false

/-- The text of a name is a name, and that of a number starts with a digit. -/
def WellFormed : ScanPpToken → Prop
  | identifier text => ∃ ch rest, text = ch :: rest ∧ isScanIdentifierStart ch = true ∧
      ∀ c ∈ rest, isScanIdentifierContinue c = true
  | number text => ∃ ch rest, text = ch :: rest ∧ ch.isDigit = true ∧ ∀ c ∈ rest, isNumberContinue c = true
  | _ => True

end ScanPpToken

/-- The text is these tokens with white space between them that keeps them apart. -/
inductive Spells : List ScanPpToken → List Char → Prop
  | nil {gap} : (∀ ch ∈ gap, isSpace ch = true) → Spells [] gap
  | cons {gap token tokens text} : (∀ ch ∈ gap, isSpace ch = true) → token.WellFormed →
      (∀ ch, text.head? = some ch → token.fuses ch = false) → Spells tokens text →
      Spells (token :: tokens) (gap ++ (token.text ++ text))

-- ---------------------------------------------------------------------------
-- Tokens of a spelled text
-- ---------------------------------------------------------------------------

variable {ch : Char} {token : ScanPpToken} {tokens : List ScanPpToken} {text behind : List Char}

theorem numberContinue_not_space (h : isNumberContinue ch = true) : isSpace ch = false := by
  unfold isNumberContinue at h
  by_cases hquote : ch = '\''
  · rw [hquote]
    rfl
  · exact isSpace_of_continue (by simpa [isScanIdentifierContinue, hquote] using h)

theorem digit_not_identifierStart (h : ch.isDigit = true) : isScanIdentifierStart ch = false := by
  obtain ⟨hlow, hhigh⟩ := isDigit_iff.mp h
  by_contra hstart
  rw [Bool.not_eq_false] at hstart
  delta isScanIdentifierStart Char.isAlpha Char.isUpper Char.isLower at hstart
  simp only [Bool.or_eq_true, Bool.and_eq_true, decide_eq_true_eq, beq_iff_eq, ge_iff_le,
    UInt32.le_iff_toNat_le] at hstart
  have hval : ch.toNat = ch.val.toNat := rfl
  have hA : 'A'.val.toNat = 65 := rfl
  have ha : 'a'.val.toNat = 97 := rfl
  obtain (⟨hupper, -⟩ | ⟨hlower, -⟩) | rfl := hstart
  · omega
  · omega
  · cases h

theorem span_of_stop {p : Char → Bool} {front : List Char} (hfront : ∀ c ∈ front, p c = true)
    (hstop : ∀ ch, behind.head? = some ch → p ch = false) :
    (front ++ behind).takeWhile p = front ∧ (front ++ behind).dropWhile p = behind := by
  rw [List.takeWhile_append_of_pos hfront, List.dropWhile_append_of_pos hfront]
  cases behind with
  | nil => exact ⟨List.append_nil _, rfl⟩
  | cons ch behind => simp [hstop ch rfl]

theorem firstToken_single {c : Char} (hstart : isScanIdentifierStart ch = false) (hdigit : ch.isDigit = false)
    (htwo : twoCharOperator ch c = none) (behind : List Char) :
    firstToken ch (c :: behind) = (oneCharToken ch).map (·, c :: behind) := by
  simp only [firstToken, hstart, hdigit, List.head?_cons, Option.bind_some, htwo]
  rfl

/-- A token is read off the text in front of anything that does not fuse with it. -/
theorem firstToken_text (h : token.WellFormed) (hstop : ∀ ch, behind.head? = some ch → token.fuses ch = false) :
    ∃ ch rest, token.text = ch :: rest ∧ isSpace ch = false ∧ firstToken ch (rest ++ behind) = some (token, behind) := by
  cases token with
  | identifier text =>
    obtain ⟨ch, rest, rfl, hstart, hrest⟩ := h
    obtain ⟨htake, hdrop⟩ := span_of_stop hrest hstop
    refine ⟨ch, rest, rfl, isSpace_of_continue (isScanIdentifierContinue_of_start hstart), ?_⟩
    rw [firstToken, if_pos hstart, htake, hdrop]
  | number text =>
    obtain ⟨ch, rest, rfl, hdigit, hrest⟩ := h
    obtain ⟨htake, hdrop⟩ := span_of_stop hrest hstop
    refine ⟨ch, rest, rfl, (isDigit_not_space hdigit).1, ?_⟩
    rw [firstToken, if_neg (by rw [digit_not_identifierStart hdigit]; exact Bool.false_ne_true), if_pos hdigit, htake, hdrop]
  | lParen => exact ⟨'(', [], rfl, rfl, by cases behind <;> rfl⟩
  | rParen => exact ⟨')', [], rfl, rfl, by cases behind <;> rfl⟩
  | not =>
    refine ⟨'!', [], rfl, rfl, ?_⟩
    cases behind with
    | nil => rfl
    | cons c behind =>
      have hc : c ≠ '=' := ne_of_beq_false (hstop c rfl)
      exact firstToken_single rfl rfl (by unfold twoCharOperator; split <;> simp_all) behind
  | bitNot => exact ⟨'~', [], rfl, rfl, by cases behind <;> rfl⟩
  | op operator =>
    cases operator with
    | bitXor | plus | minus | star | slash | percent => exact ⟨_, [], rfl, rfl, by cases behind <;> rfl⟩
    | logicalOr | logicalAnd | equal | notEqual | lessEqual | greaterEqual | shiftLeft | shiftRight =>
      exact ⟨_, _, rfl, rfl, rfl⟩
    | bitOr | bitAnd | less | greater =>
      refine ⟨_, [], rfl, rfl, ?_⟩
      cases behind with
      | nil => rfl
      | cons c behind =>
        have hc := hstop c rfl
        simp only [ScanPpToken.fuses, Bool.or_eq_false_iff, beq_eq_false_iff_ne] at hc
        exact firstToken_single rfl rfl (by unfold twoCharOperator; split <;> simp_all) behind

theorem tokenizeTurns_gap {gap : List Char} (hgap : ∀ ch ∈ gap, isSpace ch = true) (turns : Nat) (text : List Char) :
    tokenizeTurns (gap.length + turns) (gap ++ text) = tokenizeTurns turns text := by
  induction gap with
  | nil => rw [List.length_nil, Nat.zero_add, List.nil_append]
  | cons ch gap ih =>
    rw [List.length_cons, Nat.add_right_comm, List.cons_append, tokenizeTurns, if_pos (hgap ch List.mem_cons_self)]
    exact ih fun c hc => hgap c (List.mem_cons_of_mem _ hc)

theorem Spells.tokenizeTurns (h : Spells tokens text) (turns : Nat) (hturns : text.length ≤ turns) :
    tokenizeTurns turns text = some tokens := by
  induction h generalizing turns with
  | nil hgap =>
    obtain ⟨turns, rfl⟩ := Nat.exists_eq_add_of_le hturns
    have hrest := tokenizeTurns_gap hgap turns []
    rw [List.append_nil] at hrest
    rw [hrest]
    cases turns <;> rfl
  | @cons gap token tokens behind hgap hwell hstop _ ih =>
    obtain ⟨ch, rest, htext, hspace, hfirst⟩ := firstToken_text hwell hstop
    rw [List.length_append] at hturns
    obtain ⟨turns, rfl⟩ := Nat.exists_eq_add_of_le (Nat.le_of_add_right_le hturns)
    rw [tokenizeTurns_gap hgap]
    rw [htext, List.length_append, List.length_cons] at hturns
    obtain ⟨turns, rfl⟩ : ∃ n, turns = n + 1 := ⟨turns - 1, by omega⟩
    rw [htext, List.cons_append, Scan.tokenizeTurns, if_neg (by rw [hspace]; exact Bool.false_ne_true), hfirst]
    dsimp only
    rw [ih turns (by omega)]
    rfl

theorem Spells.blank (h : Spells tokens text) (hspace : isSpace ch = true) : Spells tokens (ch :: text) := by
  cases h with
  | nil hgap => exact .nil (List.forall_mem_cons.mpr ⟨hspace, hgap⟩)
  | @cons gap _ _ _ hgap hwell hstop hrest => exact @Spells.cons (ch :: gap) _ _ _ (List.forall_mem_cons.mpr ⟨hspace, hgap⟩) hwell hstop hrest

theorem Spells.tokenize (h : Spells tokens text) : tokenizeScanPreprocessorExpression text = some tokens :=
  h.tokenizeTurns _ (Nat.le_refl _)

theorem firstToken_wellFormed {rest : List Char} (h : firstToken ch text = some (token, rest)) : token.WellFormed := by
  unfold firstToken at h
  split at h
  · rename_i hstart
    obtain ⟨rfl, -⟩ := Prod.mk.inj (Option.some.inj h)
    exact ⟨ch, _, rfl, hstart, fun c => List.mem_takeWhile_imp⟩
  · split at h
    · rename_i hdigit
      obtain ⟨rfl, -⟩ := Prod.mk.inj (Option.some.inj h)
      exact ⟨ch, _, rfl, hdigit, fun c => List.mem_takeWhile_imp⟩
    · split at h
      · obtain ⟨rfl, -⟩ := Prod.mk.inj (Option.some.inj h)
        trivial
      · obtain ⟨single, hsingle, hpair⟩ := Option.map_eq_some_iff.mp h
        obtain ⟨rfl, -⟩ := Prod.mk.inj hpair
        unfold oneCharToken at hsingle
        split at hsingle <;> first | (obtain rfl := Option.some.inj hsingle; trivial) | cases hsingle

theorem twoCharOperator_text {c : Char} {operator : Operator} (h : twoCharOperator ch c = some operator) :
    operator.text = [ch, c] ∧ ∀ next, (ScanPpToken.op operator).fuses next = false := by
  unfold twoCharOperator at h
  split at h <;> first | (obtain rfl := Option.some.inj h; exact ⟨rfl, fun _ => rfl⟩) | cases h

theorem oneCharToken_text (h : oneCharToken ch = some token) :
    token.text = [ch] ∧ ∀ next, twoCharOperator ch next = none → token.fuses next = false := by
  have hother : ∀ (c next second : Char), (twoCharOperator c second).isSome = true → twoCharOperator c next = none →
      (next == second) = false := by
    rintro c next second hsome hnone
    refine beq_false_of_ne fun heq => ?_
    rw [heq] at hnone
    rw [hnone] at hsome
    cases hsome
  unfold oneCharToken at h
  split at h <;> cases h
  all_goals
    refine ⟨rfl, fun next hnone => ?_⟩
    first
    | rfl
    | exact hother _ _ _ (by decide) hnone
    | exact Bool.or_eq_false_iff.mpr ⟨hother _ _ _ (by decide) hnone, hother _ _ _ (by decide) hnone⟩

/-- What is read off is the front of the text, and does not fuse with the rest. -/
theorem firstToken_append {rest : List Char} (h : firstToken ch text = some (token, rest)) :
    token.text ++ rest = ch :: text ∧ ∀ c, rest.head? = some c → token.fuses c = false := by
  have hdropped : ∀ (p : Char → Bool) c, (text.dropWhile p).head? = some c → p c = false := by
    intro p c hhead
    have hnot := List.head?_dropWhile_not p text
    rw [hhead] at hnot
    simpa using hnot
  unfold firstToken at h
  split at h
  · obtain ⟨rfl, rfl⟩ := Prod.mk.inj (Option.some.inj h)
    exact ⟨congrArg (ch :: ·) List.takeWhile_append_dropWhile, hdropped _⟩
  · split at h
    · obtain ⟨rfl, rfl⟩ := Prod.mk.inj (Option.some.inj h)
      exact ⟨congrArg (ch :: ·) List.takeWhile_append_dropWhile, hdropped _⟩
    · split at h
      · rename_i operator htwo
        obtain ⟨rfl, rfl⟩ := Prod.mk.inj (Option.some.inj h)
        obtain ⟨c, hhead, hoperator⟩ := Option.bind_eq_some_iff.mp htwo
        obtain ⟨rest, rfl⟩ := List.head?_eq_some_iff.mp hhead
        obtain ⟨htext, hfuses⟩ := twoCharOperator_text hoperator
        exact ⟨by rw [ScanPpToken.text, htext]; rfl, fun c _ => hfuses c⟩
      · rename_i htwo
        obtain ⟨single, hsingle, hpair⟩ := Option.map_eq_some_iff.mp h
        obtain ⟨rfl, rfl⟩ := Prod.mk.inj hpair
        obtain ⟨htext, hfuses⟩ := oneCharToken_text hsingle
        refine ⟨by rw [htext]; rfl, fun c hhead => hfuses c ?_⟩
        rw [hhead] at htwo
        exact htwo

theorem tokenizeTurns_spells (turns : Nat) (text : List Char) (tokens : List ScanPpToken)
    (h : Scan.tokenizeTurns turns text = some tokens) : Spells tokens text := by
  induction turns generalizing text tokens with
  | zero =>
    cases text with
    | nil =>
      obtain rfl := Option.some.inj h
      exact .nil nofun
    | cons ch text => cases h
  | succ turns ih =>
    cases text with
    | nil =>
      obtain rfl := Option.some.inj h
      exact .nil nofun
    | cons ch text =>
      unfold Scan.tokenizeTurns at h
      split at h
      · rename_i hspace
        exact (ih _ _ h).blank hspace
      · split at h
        · cases h
        · rename_i token rest hfirst
          obtain ⟨others, hothers, rfl⟩ := Option.map_eq_some_iff.mp h
          obtain ⟨htext, hstop⟩ := firstToken_append hfirst
          rw [← htext]
          exact @Spells.cons [] _ _ _ nofun (firstToken_wellFormed hfirst) hstop (ih _ _ hothers)

theorem tokenize_iff : tokenizeScanPreprocessorExpression text = some tokens ↔ Spells tokens text :=
  ⟨tokenizeTurns_spells _ _ _, Spells.tokenize⟩

theorem Spells.wellFormed (h : Spells tokens text) : ∀ token ∈ tokens, token.WellFormed := by
  induction h with
  | nil => exact nofun
  | cons _ hwell _ _ ih => exact List.forall_mem_cons.mpr ⟨hwell, ih⟩

-- ---------------------------------------------------------------------------
-- Trimming a spelled text
-- ---------------------------------------------------------------------------

theorem text_not_space (h : token.WellFormed) : ∀ ch ∈ token.text, isSpace ch = false := by
  cases token with
  | identifier text =>
    obtain ⟨first, rest, rfl, hstart, hrest⟩ := h
    exact List.forall_mem_cons.mpr ⟨isSpace_of_continue (isScanIdentifierContinue_of_start hstart),
      fun c hc => isSpace_of_continue (hrest c hc)⟩
  | number text =>
    obtain ⟨first, rest, rfl, hdigit, hrest⟩ := h
    exact List.forall_mem_cons.mpr ⟨(isDigit_not_space hdigit).1, fun c hc => numberContinue_not_space (hrest c hc)⟩
  | op operator => cases operator <;> decide
  | lParen | rParen | not | bitNot => decide

theorem text_ne_nil (h : token.WellFormed) : token.text ≠ [] := by
  obtain ⟨ch, rest, htext, -⟩ := @firstToken_text _ [] h nofun
  rw [htext]
  exact List.cons_ne_nil _ _

theorem Spells.ltrim (h : Spells tokens text) : Spells tokens (text.dropWhile isSpace) := by
  cases h with
  | nil hgap =>
    rw [List.dropWhile_eq_nil_iff.mpr hgap]
    exact .nil (List.forall_mem_nil _)
  | @cons gap token tokens behind hgap hwell hstop hrest =>
    rw [List.dropWhile_append_of_pos hgap]
    obtain ⟨ch, front, htext⟩ := List.exists_cons_of_ne_nil (text_ne_nil hwell)
    have hspace := text_not_space hwell ch (htext ▸ List.mem_cons_self)
    rw [htext, List.cons_append, List.dropWhile_cons_of_neg (by rw [hspace]; exact Bool.false_ne_true), ← List.cons_append, ← htext]
    exact @Spells.cons [] _ _ _ (List.forall_mem_nil _) hwell hstop hrest

theorem Spells.rtrim (h : Spells tokens text) : Spells tokens (text.rdropWhile isSpace) := by
  induction h with
  | nil hgap =>
    rw [List.rdropWhile_eq_nil_iff.mpr hgap]
    exact .nil (List.forall_mem_nil _)
  | @cons gap token tokens behind hgap hwell hstop _ ih =>
    have hkeep : (gap ++ token.text).rdropWhile isSpace = gap ++ token.text := by
      refine List.rdropWhile_eq_self_iff.mpr fun hne => ?_
      rw [List.getLast_append_of_ne_nil _ (text_ne_nil hwell), text_not_space hwell _ (List.getLast_mem _)]
      exact Bool.false_ne_true
    have hwhole : (gap ++ (token.text ++ behind)).rdropWhile isSpace = gap ++ (token.text ++ behind.rdropWhile isSpace) := by
      rw [← List.append_assoc, Trimming.rdropWhile_append, hkeep, ← List.append_assoc]
      split
      · rename_i hnil
        rw [hnil, List.append_nil]
      · rfl
    rw [hwhole]
    refine .cons hgap hwell (fun ch hhead => ?_) ih
    obtain ⟨rest, hrest⟩ := behind.rdropWhile_prefix (p := isSpace)
    refine hstop ch ?_
    rw [← hrest, List.head?_append, hhead]
    rfl

theorem Spells.trim (h : Spells tokens text) : Spells tokens (trimAsciiView text) := h.ltrim.rtrim

-- ---------------------------------------------------------------------------
-- No operator of another kind
-- ---------------------------------------------------------------------------

/-- No token that ends like `__has_include` has an opening parenthesis behind it. -/
def NoHasInclude (tokens : List ScanPpToken) : Prop :=
  tokens.IsChain fun token next => next = .lParen → ¬hasInclude <:+ token.text

def CallsHasInclude (text : List Char) : Prop :=
  ∃ front gap behind, text = front ++ (hasInclude ++ (gap ++ '(' :: behind)) ∧ ∀ ch ∈ gap, isSpace ch = true

theorem firstPassage_operator {expr rest : List Char} (h : firstPassage ch text = (.operator expr, rest)) :
    CallsHasInclude (ch :: text) := by
  unfold firstPassage at h
  split at h
  · rename_i hstarts
    have hfront := List.prefix_iff_eq_append.mp (List.isPrefixOf_iff_prefix.mp hstarts)
    have hgap := List.takeWhile_append_dropWhile (p := isSpace) (l := (ch :: text).drop hasInclude.length)
    dsimp only at h
    split at h
    · rename_i hparen
      obtain ⟨behind, hbehind⟩ := List.head?_eq_some_iff.mp hparen
      refine ⟨[], ((ch :: text).drop hasInclude.length).takeWhile isSpace, behind, ?_, fun _ => List.mem_takeWhile_imp⟩
      rw [List.nil_append, ← hbehind, hgap]
      exact hfront.symm
    · cases h
  · cases h

theorem passagesTurns_operator {expr : List Char} (turns : Nat) (text : List Char)
    (h : .operator expr ∈ passagesTurns turns text) : CallsHasInclude text := by
  induction turns generalizing text with
  | zero => cases h
  | succ turns ih =>
    cases text with
    | nil => cases h
    | cons ch text =>
      obtain hhead | hrest := List.mem_cons.mp h
      · exact firstPassage_operator (Prod.ext hhead.symm rfl)
      · obtain ⟨front, gap, behind, hcalls, hgap⟩ := ih _ hrest
        refine ⟨(firstPassage ch text).1.text ++ front, gap, behind, ?_, hgap⟩
        rw [List.append_assoc, ← hcalls, (firstPassage_append ch text).1]

theorem rewrite_of_not_calls (files : IncludeFiles) (macros : MacroTable) (turns : Nat) (h : ¬CallsHasInclude text) :
    rewriteScanHasIncludeOperators files macros turns text = some text := by
  have hkept : ∀ passage ∈ passages text, Passage.rewrite files macros turns passage = some passage.text := by
    intro passage hmem
    cases passage with
    | verbatim text => rfl
    | operator expr => exact absurd (passagesTurns_operator _ _ hmem) h
  rw [rewriteScanHasIncludeOperators, Fallible.mapM_some_of_forall hkept, Option.map_some, passages_text]

theorem hasInclude_cons : hasInclude = '_' :: "_has_include".toList := rfl

theorem hasInclude_letters : ∀ ch ∈ hasInclude, isScanIdentifierContinue ch = true := by decide

theorem text_of_underscore (h : token.WellFormed) (hmem : '_' ∈ token.text) :
    (∀ ch ∈ token.text, isNumberContinue ch = true) ∧ ∀ ch, isScanIdentifierContinue ch = true → token.fuses ch = true := by
  have hnumber : ∀ ch, isScanIdentifierContinue ch = true → isNumberContinue ch = true := by
    intro ch hch
    rw [isNumberContinue, Bool.or_eq_true]
    exact .inl hch
  cases token with
  | identifier text =>
    obtain ⟨first, rest, rfl, hstart, hrest⟩ := h
    exact ⟨List.forall_mem_cons.mpr ⟨hnumber _ (isScanIdentifierContinue_of_start hstart), fun c hc => hnumber c (hrest c hc)⟩,
      fun _ hch => hch⟩
  | number text =>
    obtain ⟨first, rest, rfl, hdigit, hrest⟩ := h
    have hfirst : isNumberContinue first = true := by simp [isNumberContinue, Char.isAlphanum, hdigit]
    exact ⟨List.forall_mem_cons.mpr ⟨hfirst, hrest⟩, hnumber⟩
  | op operator => cases operator <;> simp [ScanPpToken.text, Operator.text] at hmem
  | lParen | rParen | not | bitNot => simp [ScanPpToken.text] at hmem

theorem Spells.lParen {gap : List Char} (h : Spells tokens (gap ++ '(' :: behind)) (hgap : ∀ ch ∈ gap, isSpace ch = true) :
    tokens.head? = some .lParen := by
  have htokens := h.tokenizeTurns (gap.length + (behind.length + 1)) (by simp)
  have hfirst : firstToken '(' behind = some (.lParen, behind) := by cases behind <;> rfl
  rw [tokenizeTurns_gap hgap, Scan.tokenizeTurns, if_neg (by decide), hfirst] at htokens
  obtain ⟨rest, -, rfl⟩ := Option.map_eq_some_iff.mp htokens
  rfl

/-- A text that spells tokens calls the operator only where they do. -/
theorem Spells.not_calls (h : Spells tokens text) (hno : NoHasInclude tokens) : ¬CallsHasInclude text := by
  induction h with
  | nil hgap =>
    rintro ⟨front, gap, behind, rfl, -⟩
    have hspace := hgap '_' (by simp [hasInclude_cons])
    cases hspace
  | @cons gap token tokens rest hgap hwell hstop hspells ih =>
    rintro ⟨front, blank, behind, heq, hblank⟩
    have hrest : ¬CallsHasInclude rest := ih (List.IsChain.tail hno)
    -- the operator does not start in the white space
    obtain ⟨front, htoken⟩ : ∃ front, token.text ++ rest = front ++ (hasInclude ++ (blank ++ '(' :: behind)) := by
      obtain ⟨front, -, htoken⟩ | ⟨inner, hinner, hcalls⟩ := List.append_eq_append_iff.mp heq
      · exact ⟨front, htoken⟩
      · cases inner with
        | nil => exact ⟨[], hcalls.symm⟩
        | cons c inner =>
          rw [hasInclude_cons] at hcalls
          obtain rfl := (List.cons.inj hcalls).1
          have hspace := hgap '_' (by simp [hinner])
          cases hspace
    obtain ⟨front, -, hbehind⟩ | ⟨inner, hinner, hcalls⟩ := List.append_eq_append_iff.mp htoken
    · exact hrest ⟨front, blank, behind, hbehind, hblank⟩
    · cases inner with
      | nil => exact hrest ⟨[], blank, behind, hcalls.symm, hblank⟩
      | cons c inner =>
        have hunder : '_' ∈ token.text := by
          rw [hasInclude_cons] at hcalls
          rw [hinner, ← (List.cons.inj hcalls).1]
          simp
        obtain ⟨hletters, hfuses⟩ := text_of_underscore hwell hunder
        -- the token does not end where the operator does
        have hends : c :: inner = hasInclude → rest ≠ blank ++ '(' :: behind := by
          rintro hend rfl
          exact (List.isChain_cons.mp hno).1 .lParen (hspells.lParen hblank) rfl ⟨front, by rw [hinner, hend]⟩
        obtain ⟨after, hafter, hopen⟩ | ⟨after, hafter, hopen⟩ := List.append_eq_append_iff.mp hcalls
        · -- the token goes on behind the operator
          have hmem : ∀ ch ∈ after, isNumberContinue ch = true := fun ch hch =>
            hletters ch (by rw [hinner, hafter]; simp [hch])
          cases after with
          | nil =>
            rw [List.append_nil] at hafter
            rw [List.nil_append] at hopen
            exact hends hafter hopen.symm
          | cons ch after =>
            have hnumber := hmem ch List.mem_cons_self
            cases blank with
            | nil =>
              rw [← (List.cons.inj hopen).1] at hnumber
              cases hnumber
            | cons b blank =>
              have hspace := hblank b List.mem_cons_self
              rw [(List.cons.inj hopen).1, numberContinue_not_space hnumber] at hspace
              cases hspace
        · -- the operator goes on behind the token
          cases after with
          | nil =>
            rw [List.append_nil] at hafter
            rw [List.nil_append] at hopen
            exact hends hafter.symm hopen
          | cons ch after =>
            have hletter : ch ∈ hasInclude := hafter ▸ List.mem_append_right _ List.mem_cons_self
            have hfused := hfuses ch (hasInclude_letters ch hletter)
            rw [hstop ch (by rw [hopen]; rfl)] at hfused
            cases hfused

-- ---------------------------------------------------------------------------
-- Evaluating a spelled text
-- ---------------------------------------------------------------------------

/-- What the parser knows of the macros with `depth` replacements left. -/
def namesAt (macros : MacroTable) : Nat → Names
  | 0 => macroNames macros fun _ => .error .unknown
  | depth + 1 => macroNames macros (parseExpression macros depth)

theorem parseExpression_eq (macros : MacroTable) (depth : Nat) :
    parseExpression macros depth = parseText (namesAt macros depth) := by
  cases depth <;> rfl

theorem Spells.evaluate (h : Spells tokens text) (hno : NoHasInclude tokens) (files : IncludeFiles) (macros : MacroTable)
    (turns : Nat) :
    evaluateSimplePreprocessorCondition files macros turns text =
      some ((parseTokens (namesAt macros 32) tokens).map fun value => decide (value ≠ 0)) := by
  unfold evaluateSimplePreprocessorCondition
  dsimp only
  split
  · rename_i hempty
    have htokens := h.trim.tokenize
    rw [List.isEmpty_iff.mp hempty] at htokens
    obtain rfl := Option.some.inj htokens
    rfl
  · rw [rewrite_of_not_calls files macros turns (h.trim.not_calls hno), Option.map_some, parseExpression_eq, parseText,
      h.trim.tokenize]

end Gentest.Scan
