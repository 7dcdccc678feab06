import Gentest.Lib.Fallible
import Gentest.Lib.WhileLoops
import Gentest.Scan.Expression

/-!
# `__has_include` in conditions

`evaluate_simple_preprocessor_condition` puts a digit in the place of every
`__has_include(...)` it can answer and parses what it gets. An operand that is a name
is looked up in the macros, and what is found there is an operand again: this loop has
no bound of its own, and so everything above it takes a number of turns and is `none`
when they do not suffice.
-/

namespace Gentest.Scan

open Gentest.Codegen (isSpace)
open LongLong (Fault)
open WhileLoops (Step)

structure IncludeFiles where
  sourceDirectory : List Char
  includeSearchPaths : List (List Char)
  /-- `std::filesystem::exists` of a name in a directory. -/
  existsIn : List Char → List Char → Bool

def noFiles : IncludeFiles := ⟨[], [], fun _ _ => false⟩

def IncludeFiles.found (files : IncludeFiles) (includeName : List Char) (angled : Bool) : Bool :=
  (!angled && !files.sourceDirectory.isEmpty && files.existsIn files.sourceDirectory includeName) ||
    files.includeSearchPaths.any fun dir => !dir.isEmpty && files.existsIn dir includeName

-- ---------------------------------------------------------------------------
-- The operand
-- ---------------------------------------------------------------------------

/-- A call of `resolve_operand`, which calls itself last: the name of the header, and
whether it stands in angles. -/
def resolveTurn (macros : MacroTable) (operand : List Char) : Step (List Char) (Option (List Char × Bool)) :=
  let operand := trimAsciiView operand
  if 2 ≤ operand.length ∧ operand.head? = some '"' ∧ operand.getLast? = some '"' then
    .done (some (operand.tail.dropLast, false))
  else if 2 ≤ operand.length ∧ operand.head? = some '<' ∧ operand.getLast? = some '>' then
    .done (some (operand.tail.dropLast, true))
  else
    match parseScanIdentifier operand with
    | none => .done none
    | some ident =>
      if ident = operand then
        match macros ident with
        | some value => .next (trimAsciiView value)
        | none => .done none
      else .done none

def resolveOperand (macros : MacroTable) (turns : Nat) (operand : List Char) : Option (Option (List Char × Bool)) :=
  WhileLoops.run (resolveTurn macros) turns operand

def hasInclude : List Char := "__has_include".toList

def operandOf (expr : List Char) : Option (List Char) :=
  let expr := trimAsciiView expr
  if hasInclude.isPrefixOf expr then
    let expr := trimAsciiView (expr.drop hasInclude.length)
    if expr.head? = some '(' ∧ expr.getLast? = some ')' then
      let operand := trimAsciiView expr.tail.dropLast
      if operand.length < 2 then none else some operand
    else none
  else none

variable (files : IncludeFiles) (macros : MacroTable) (turns : Nat)

/-- The answer, or `some none` where the operator is not handled. -/
def scanHasIncludeLiteral (expr : List Char) : Option (Option Bool) :=
  match operandOf expr with
  | none => some none
  | some operand =>
    (resolveOperand macros turns operand).map fun resolved =>
      resolved.map fun (includeName, angled) => files.found includeName angled

-- ---------------------------------------------------------------------------
-- The text
-- ---------------------------------------------------------------------------

inductive Passage
  | verbatim (text : List Char)
  | operator (expr : List Char)
  deriving DecidableEq, Repr

/-- The text up to the parenthesis that closes the last one, with what is behind it. -/
def splitClosing : Nat → List Char → Option (List Char × List Char)
  | _, [] => none
  | depth, ch :: text =>
    if ch = ')' ∧ depth = 1 then some ([')'], text)
    else
      (splitClosing (if ch = '(' then depth + 1 else if ch = ')' then depth - 1 else depth) text).map
        fun (group, rest) => (ch :: group, rest)

def firstPassage (ch : Char) (text : List Char) : Passage × List Char :=
  if hasInclude.isPrefixOf (ch :: text) then
    let behind := (ch :: text).drop hasInclude.length
    let gap := behind.takeWhile isSpace
    let behind := behind.dropWhile isSpace
    if behind.head? = some '(' then
      match splitClosing 0 behind with
      | none => (.verbatim (ch :: text), [])
      | some (group, rest) => (.operator (hasInclude ++ gap ++ group), rest)
    else (.verbatim (hasInclude ++ gap), behind)
  else (.verbatim [ch], text)

/-- At most `turns` turns. A turn passes at least one character. -/
def passagesTurns : Nat → List Char → List Passage
  | 0, _ => []
  | _, [] => []
  | turns + 1, ch :: text => (firstPassage ch text).1 :: passagesTurns turns (firstPassage ch text).2

def passages (text : List Char) : List Passage := passagesTurns text.length text

def Passage.rewrite : Passage → Option (List Char)
  | .verbatim text => some text
  | .operator expr =>
    (scanHasIncludeLiteral files macros turns expr).map fun
      | some true => ['1']
      | some false => ['0']
      | none => expr

def rewriteScanHasIncludeOperators (text : List Char) : Option (List Char) :=
  ((passages text).mapM (Passage.rewrite files macros turns)).map List.flatten

def evaluateSimplePreprocessorCondition (text : List Char) : Option (Except Fault Bool) :=
  let text := trimAsciiView text
  if text.isEmpty then some (.error .unknown)
  else
    (rewriteScanHasIncludeOperators files macros turns text).map fun rewritten =>
      (parseExpression macros 32 rewritten).map fun value => value ≠ 0

-- ---------------------------------------------------------------------------
-- Passages
-- ---------------------------------------------------------------------------

def Passage.text : Passage → List Char
  | .verbatim text => text
  | .operator expr => expr

theorem splitClosing_append {depth : Nat} {text group rest : List Char} (h : splitClosing depth text = some (group, rest)) :
    group ++ rest = text := by
  induction text generalizing depth group with
  | nil => cases h
  | cons ch text ih =>
    unfold splitClosing at h
    split at h
    · rename_i hclose
      obtain ⟨rfl, rfl⟩ := Prod.mk.inj (Option.some.inj h)
      rw [hclose.1]
      rfl
    · obtain ⟨⟨inner, behind⟩, hinner, heq⟩ := Option.map_eq_some_iff.mp h
      obtain ⟨rfl, rfl⟩ := Prod.mk.inj heq
      rw [List.cons_append, ih hinner]

theorem firstPassage_append (ch : Char) (text : List Char) :
    (firstPassage ch text).1.text ++ (firstPassage ch text).2 = ch :: text ∧
      (firstPassage ch text).2.length ≤ text.length := by
  unfold firstPassage
  split
  · rename_i hstarts
    have hfront := List.prefix_iff_eq_append.mp (List.isPrefixOf_iff_prefix.mp hstarts)
    have hgap := List.takeWhile_append_dropWhile (p := isSpace) (l := (ch :: text).drop hasInclude.length)
    have hlength := congrArg List.length hfront
    rw [← hgap, List.length_append, List.length_append, List.length_cons] at hlength
    have hmarker : hasInclude.length = 13 := rfl
    dsimp only
    split
    · split
      · exact ⟨List.append_nil _, Nat.zero_le _⟩
      · rename_i group rest hsplit
        have hgroup := splitClosing_append hsplit
        have hrest := congrArg List.length hgroup
        rw [List.length_append] at hrest
        refine ⟨?_, ?_⟩
        · rw [Passage.text, List.append_assoc, List.append_assoc, hgroup, hgap]
          exact hfront
        · dsimp only
          omega
    · refine ⟨?_, ?_⟩
      · rw [Passage.text, List.append_assoc, hgap]
        exact hfront
      · dsimp only
        omega
  · exact ⟨rfl, Nat.le_refl _⟩

theorem passagesTurns_text (n : Nat) (text : List Char) (h : text.length ≤ n) :
    ((passagesTurns n text).map Passage.text).flatten = text := by
  induction n generalizing text with
  | zero =>
    obtain rfl := List.length_eq_zero_iff.mp (Nat.le_zero.mp h)
    rfl
  | succ n ih =>
    cases text with
    | nil => rfl
    | cons ch text =>
      obtain ⟨hwhole, hshort⟩ := firstPassage_append ch text
      have hrest := ih (firstPassage ch text).2 (Nat.le_trans hshort (Nat.le_of_succ_le_succ h))
      rw [passagesTurns, List.map_cons, List.flatten_cons, hrest, hwhole]

theorem passages_text (text : List Char) : ((passages text).map Passage.text).flatten = text :=
  passagesTurns_text _ _ (Nat.le_refl _)

end Gentest.Scan
