import Gentest.Codegen.CodegenModel
import Gentest.Lib.Trimming
import Mathlib.Logic.Function.Basic

/-!
# Preprocessor lines of a scan

`handle_preprocessor_logical_line` on the state of a scan: the conditionals that are
open, innermost first, and the object-like macros. What the evaluator says of the
condition of a line comes with the line. File names are left out.
-/

namespace Gentest.Scan

open Gentest.Codegen (isSpace)

-- ---------------------------------------------------------------------------
-- Text
-- ---------------------------------------------------------------------------

def trimAsciiView (text : List Char) : List Char := Trimming.trim isSpace text

def ltrimAsciiView (text : List Char) : List Char := text.dropWhile isSpace

def rtrimAsciiView (text : List Char) : List Char := text.rdropWhile isSpace

def isScanIdentifierStart (ch : Char) : Bool := ch.isAlpha || ch == '_'

def isScanIdentifierContinue (ch : Char) : Bool := ch.isAlphanum || ch == '_'

def parseScanIdentifier (text : List Char) : Option (List Char) :=
  match trimAsciiView text with
  | [] => none
  | ch :: rest => if isScanIdentifierStart ch then some (ch :: rest.takeWhile isScanIdentifierContinue) else none

theorem isSpace_of_continue {ch : Char} (h : isScanIdentifierContinue ch = true) : isSpace ch = false := by
  have hspaces : ∀ ch ∈ [' ', '\t', '\n', '\x0b', '\x0c', '\r'], isScanIdentifierContinue ch = false := by
    decide
  rw [Bool.eq_false_iff]
  intro hspace
  rw [hspaces ch (Codegen.isSpace_cases hspace)] at h
  cases h

theorem isScanIdentifierContinue_of_start {ch : Char} (h : isScanIdentifierStart ch = true) :
    isScanIdentifierContinue ch = true := by
  simp only [isScanIdentifierStart, isScanIdentifierContinue, Char.isAlphanum, Bool.or_eq_true] at h ⊢
  exact h.imp_left .inl

-- ---------------------------------------------------------------------------
-- The state
-- ---------------------------------------------------------------------------

/-- `object_like_macros`. -/
abbrev MacroTable := List Char → Option (List Char)

def MacroTable.define (macros : MacroTable) (name value : List Char) : MacroTable :=
  Function.update macros name (some value)

def MacroTable.undefine (macros : MacroTable) (name : List Char) : MacroTable :=
  Function.update macros name none

structure ScanConditionalFrame where
  parentActive : Bool := true
  branchTaken : Bool := false
  active : Bool := true
  deriving DecidableEq, Repr

structure UnknownCondition where
  lineNumber : Nat
  keyword : String
  expr : List Char
  deriving DecidableEq, Repr

structure ScanStreamState where
  inBlockComment : Bool := false
  inPreprocessorContinuation : Bool := false
  currentBranchActive : Bool := true
  pendingPreprocessor : List Char := []
  objectLikeMacros : MacroTable := fun _ => none
  conditionals : List ScanConditionalFrame := []
  warnOnUnknownConditions : Bool := true
  currentLine : Nat := 0
  pendingPreprocessorStartLine : Nat := 0
  warnings : List UnknownCondition := []

def updatePreprocessorBranchState (s : ScanStreamState) : ScanStreamState :=
  { s with currentBranchActive := (s.conditionals.head?.map (·.active)).getD true }

def warnUnknownPreprocessorCondition (keyword : String) (expr : List Char) (lineNumber : Nat) (s : ScanStreamState) :
    ScanStreamState :=
  let warning : UnknownCondition := ⟨lineNumber, keyword, trimAsciiView expr⟩
  if !s.warnOnUnknownConditions || warning.expr.isEmpty || s.warnings.contains warning then s
  else { s with warnings := s.warnings ++ [warning] }

-- ---------------------------------------------------------------------------
-- Logical lines
-- ---------------------------------------------------------------------------

inductive Keyword
  | if_
  | ifdef
  | ifndef
  | elif
  | else_
  | endif
  | define
  | undef
  /-- Anything else behind the `#`. -/
  | other
  deriving DecidableEq, Repr

def keywordOf (text : List Char) : Keyword :=
  if text = "if".toList then .if_
  else if text = "ifdef".toList then .ifdef
  else if text = "ifndef".toList then .ifndef
  else if text = "elif".toList then .elif
  else if text = "else".toList then .else_
  else if text = "endif".toList then .endif
  else if text = "define".toList then .define
  else if text = "undef".toList then .undef
  else .other

/-- The keyword of a line and what is behind it, trimmed. -/
def directiveOf (rawLine : List Char) : Option (Keyword × List Char) :=
  match ltrimAsciiView rawLine with
  | '#' :: cursor =>
    let cursor := ltrimAsciiView cursor
    some (keywordOf (cursor.takeWhile Char.isAlpha), trimAsciiView (cursor.dropWhile Char.isAlpha))
  | _ => none

/-- `#if`, `#ifdef` and `#ifndef` open a conditional. -/
def ScanStreamState.openConditional (s : ScanStreamState) (branchActive : Bool) : ScanStreamState :=
  updatePreprocessorBranchState
    { s with conditionals := ⟨s.currentBranchActive, branchActive, branchActive⟩ :: s.conditionals }

/-- `state.object_like_macros.contains(*ident)`. -/
def ScanStreamState.isDefined (s : ScanStreamState) (rest : List Char) : Bool :=
  (parseScanIdentifier rest).any fun ident => (s.objectLikeMacros ident).isSome

def handleIf (s : ScanStreamState) (rest : List Char) (evaluated : Option Bool) (lineNumber : Nat) : ScanStreamState :=
  let parentActive := s.currentBranchActive
  let s := if parentActive && evaluated.isNone then warnUnknownPreprocessorCondition "if" rest lineNumber s else s
  s.openConditional (parentActive && evaluated.getD false)

def handleElif (s : ScanStreamState) (rest : List Char) (evaluated : Option Bool) (lineNumber : Nat) :
    ScanStreamState :=
  match s.conditionals with
  | [] => s
  | frame :: outer =>
    let s :=
      if frame.parentActive && !frame.branchTaken && evaluated.isNone then
        warnUnknownPreprocessorCondition "elif" rest lineNumber s
      else s
    let branchActive := frame.parentActive && !frame.branchTaken && evaluated.getD false
    updatePreprocessorBranchState
      { s with
        conditionals :=
          { frame with active := branchActive, branchTaken := frame.branchTaken || branchActive } :: outer }

def handleElse (s : ScanStreamState) : ScanStreamState :=
  match s.conditionals with
  | [] => s
  | frame :: outer =>
    updatePreprocessorBranchState
      { s with
        conditionals :=
          { frame with active := frame.parentActive && !frame.branchTaken, branchTaken := true } :: outer }

def handleDefine (s : ScanStreamState) (rest : List Char) : ScanStreamState :=
  match parseScanIdentifier rest with
  | none => s
  | some ident =>
    let remainder := trimAsciiView (rest.drop ident.length)
    if remainder.head? = some '(' then s
    else { s with objectLikeMacros := s.objectLikeMacros.define ident remainder }

def handleUndef (s : ScanStreamState) (rest : List Char) : ScanStreamState :=
  match parseScanIdentifier rest with
  | none => s
  | some ident => { s with objectLikeMacros := s.objectLikeMacros.undefine ident }

/-- `evaluated` is what the evaluator says of the condition of the line. -/
def handlePreprocessorLogicalLine (rawLine : List Char) (evaluated : Option Bool) (lineNumber : Nat)
    (s : ScanStreamState) : ScanStreamState :=
  match directiveOf rawLine with
  | none => s
  | some (.if_, rest) => handleIf s rest evaluated lineNumber
  | some (.ifdef, rest) => s.openConditional (s.currentBranchActive && s.isDefined rest)
  | some (.ifndef, rest) => s.openConditional (s.currentBranchActive && !s.isDefined rest)
  | some (.elif, rest) => handleElif s rest evaluated lineNumber
  | some (.else_, _) => handleElse s
  | some (.endif, _) => updatePreprocessorBranchState { s with conditionals := s.conditionals.tail }
  | some (.define, rest) => if s.currentBranchActive then handleDefine s rest else s
  | some (.undef, rest) => if s.currentBranchActive then handleUndef s rest else s
  | some (.other, _) => s

end Gentest.Scan
