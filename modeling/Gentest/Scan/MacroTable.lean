import Gentest.Scan.Conditionals
import Mathlib.Data.Bool.AllAny

/-!
# The macro table

Macros are set by the options of the command line and then by the lines of the file.
What each of them does to a name is a `MacroEvent`; the table should hold what the last
event of a name says.
-/

namespace Gentest.Scan

open Gentest.Codegen (isSpace)

-- ---------------------------------------------------------------------------
-- The command line
-- ---------------------------------------------------------------------------

/-- The text before the first `=`, and behind it. -/
def splitEquals (definition : List Char) : List Char × Option (List Char) :=
  (definition.takeWhile (· ≠ '='), (definition.dropWhile (· ≠ '=')).tail?)

def defineMacro (macros : MacroTable) (definition : List Char) : MacroTable :=
  let (name, value) := splitEquals definition
  if name.isEmpty ∨ '(' ∈ name then macros
  else if (parseScanIdentifier name).isNone then macros
  else macros.define name (value.getD ['1'])

def undefineMacro (macros : MacroTable) (definition : List Char) : MacroTable :=
  if definition.isEmpty ∨ '(' ∈ definition then macros
  else
    match parseScanIdentifier definition with
    | some ident => macros.undefine ident
    | none => macros

/-- `consume_define` and `consume_undef`: what the next argument is for. -/
inductive Consume
  | nothing
  | define
  | undef
  deriving DecidableEq, Repr

def populateArgument (state : MacroTable × Consume) (arg : List Char) : MacroTable × Consume :=
  match state.2 with
  | .define => (defineMacro state.1 arg, .nothing)
  | .undef => (undefineMacro state.1 arg, .nothing)
  | .nothing =>
    if arg = "-D".toList ∨ arg = "/D".toList then (state.1, .define)
    else if arg = "-U".toList ∨ arg = "/U".toList then (state.1, .undef)
    else if "-D".toList <+: arg ∨ "/D".toList <+: arg then (defineMacro state.1 (arg.drop 2), .nothing)
    else if "-U".toList <+: arg ∨ "/U".toList <+: arg then (undefineMacro state.1 (arg.drop 2), .nothing)
    else state

def populateScanMacrosFromCommandLine (s : ScanStreamState) (commandLine : List (List Char)) : ScanStreamState :=
  { s with objectLikeMacros := (commandLine.foldl populateArgument (s.objectLikeMacros, .nothing)).1 }

-- ---------------------------------------------------------------------------
-- What a definition says
-- ---------------------------------------------------------------------------

inductive MacroEvent
  | objectLike (name value : List Char)
  | functionLike (name : List Char)
  | undefined (name : List Char)
  deriving DecidableEq, Repr

def MacroEvent.name : MacroEvent → List Char
  | .objectLike name _ | .functionLike name | .undefined name => name

def MacroEvent.value? : MacroEvent → Option (List Char)
  | .objectLike _ value => some value
  | _ => none

def IsScanIdentifier (text : List Char) : Prop :=
  text.head?.any isScanIdentifierStart = true ∧ text.all isScanIdentifierContinue = true

/-- The identifier in front as the scan reads it, and the text right behind it. -/
def identifierFront (text : List Char) : Option (List Char × List Char) :=
  match ltrimAsciiView text with
  | ch :: rest =>
    if isScanIdentifierStart ch then
      some (ch :: rest.takeWhile isScanIdentifierContinue, rest.dropWhile isScanIdentifierContinue)
    else none
  | [] => none

/-- The letters of a C++ name: `$` and what is not ASCII are among them. -/
def isNameLetter (ch : Char) : Bool := isScanIdentifierContinue ch || ch == '$' || decide (128 ≤ ch.toNat)

def isHexadecimal (ch : Char) : Bool := ch.isDigit || ('a' ≤ ch && ch ≤ 'f') || ('A' ≤ ch && ch ≤ 'F')

def hexadecimalDigit (ch : Char) : Nat :=
  if ch.isDigit then ch.toNat - '0'.toNat else 10 + (ch.toLower.toNat - 'a'.toNat)

/-- The letter of a name that a number stands for; the ones of ASCII are spelled as
themselves. -/
def universalLetter (digits : List Char) : Option Char :=
  let letter := Char.ofNat (digits.foldl (fun value digit => value * 16 + hexadecimalDigit digit) 0)
  if digits.all isHexadecimal && isNameLetter letter && !isScanIdentifierContinue letter then some letter else none

/-- Behind a backslash: the letter of a universal-character-name, and its length there. -/
def universalName : List Char → Option (Char × Nat)
  | 'u' :: '{' :: behind =>
    let digits := behind.takeWhile isHexadecimal
    if behind[digits.length]? = some '}' then (universalLetter digits).map (·, digits.length + 3) else none
  | 'u' :: behind => if 4 ≤ behind.length then (universalLetter (behind.take 4)).map (·, 5) else none
  | 'U' :: behind => if 8 ≤ behind.length then (universalLetter (behind.take 8)).map (·, 9) else none
  | _ => none

/-- The letters of a name in front and the text behind them, once `skip` characters are
passed. -/
def nameLetters : Nat → List Char → List Char × List Char
  | _, [] => ([], [])
  | skip + 1, _ :: rest => nameLetters skip rest
  | 0, ch :: rest =>
    if isNameLetter ch then Prod.map (ch :: ·) id (nameLetters 0 rest)
    else
      match if ch = '\\' then universalName rest else none with
      | some (letter, length) => Prod.map (letter :: ·) id (nameLetters length rest)
      | none => ([], ch :: rest)

def IsMacroName (name : List Char) : Prop :=
  name.head?.any (fun ch => isNameLetter ch && !ch.isDigit) = true ∧ name.all isNameLetter = true

def nameFront (text : List Char) : Option (List Char × List Char) :=
  let (name, behind) := nameLetters 0 (ltrimAsciiView text)
  if (ltrimAsciiView text).head?.any Char.isDigit || name.isEmpty then none else some (name, behind)

/-- The name of a directive, behind `#` or `%:`, and what is behind that name. -/
def directiveSeen (rawLine : List Char) : Option (List Char × List Char) :=
  match ltrimAsciiView rawLine with
  | '#' :: cursor | '%' :: ':' :: cursor => nameFront cursor
  | _ => none

/-- What `#define` says: a parenthesis right behind the name makes a function-like
macro, and anything else is the replacement text. -/
def defineEvent (text : List Char) : Option MacroEvent :=
  (nameFront text).map fun (name, rest) =>
    if rest.head? = some '(' then .functionLike name else .objectLike name (trimAsciiView rest)

def undefEvent (text : List Char) : Option MacroEvent :=
  (nameFront text).map fun (name, _) => .undefined name

/-- `-D name=value` is `#define name value`, and `-D name` is `#define name 1`. -/
def optionEvent (definition : List Char) : Option MacroEvent :=
  let (name, value) := splitEquals definition
  defineEvent (name ++ ' ' :: value.getD ['1'])

inductive Setting
  | define (definition : List Char)
  | undef (definition : List Char)
  | line (line : ScanLine)
  deriving DecidableEq, Repr

/-- What a setting says in a state: a line in an inactive branch says nothing. -/
def Setting.event (s : ScanStreamState) : Setting → Option MacroEvent
  | .define definition => optionEvent definition
  | .undef definition => undefEvent definition
  | .line l =>
    match directiveSeen l.rawLine with
    | some (name, rest) =>
      if s.currentBranchActive = false then none
      else if name = "define".toList then defineEvent (trimAsciiView rest)
      else if name = "undef".toList then undefEvent (trimAsciiView rest)
      else none
    | none => none

/-- What the scan takes a setting for, by its own letters and behind `#` alone. -/
def Setting.taken (s : ScanStreamState) : Setting → Option MacroEvent
  | .define definition =>
    let (name, value) := splitEquals definition
    if '(' ∈ name ∨ (parseScanIdentifier name).isNone then none
    else some (.objectLike name (trimAsciiView (value.getD ['1'])))
  | .undef definition => if '(' ∈ definition then none else (parseScanIdentifier definition).map .undefined
  | .line l =>
    match directiveOf l.rawLine with
    | some (.define, rest) =>
      if s.currentBranchActive = false then none
      else
        (identifierFront rest).bind fun (name, behind) =>
          if (trimAsciiView behind).head? = some '(' then none else some (.objectLike name (trimAsciiView behind))
    | some (.undef, rest) =>
      if s.currentBranchActive = false then none else (parseScanIdentifier rest).map .undefined
    | _ => none

def ScanStreamState.apply (s : ScanStreamState) : Setting → ScanStreamState
  | .define definition => { s with objectLikeMacros := defineMacro s.objectLikeMacros definition }
  | .undef definition => { s with objectLikeMacros := undefineMacro s.objectLikeMacros definition }
  | .line l => s.handle l

def ScanStreamState.applyAll (s : ScanStreamState) (settings : List Setting) : ScanStreamState :=
  settings.foldl ScanStreamState.apply s

def lastValue (events : List MacroEvent) (name : List Char) : Option (List Char) :=
  (events.reverse.find? (·.name = name)).bind MacroEvent.value?

/-- The table holds the object-like macros, with white space around a value apart. -/
def Exact (macros : MacroTable) (events : List MacroEvent) : Prop :=
  ∀ name, IsMacroName name → (macros name).map trimAsciiView = lastValue events name

def MacroEvent.Holds (macros : MacroTable) (event : MacroEvent) : Prop :=
  (macros event.name).map trimAsciiView = event.value?

/-- A setting that the scan reads as the event it is: the name in the scan's own letters,
in front of a replacement list without a parenthesis, in a line behind `#`. -/
def Setting.ReadsAs : Setting → MacroEvent → Prop
  | .define definition, .objectLike name _ =>
    (splitEquals definition).1 = name ∧ name.head?.any isScanIdentifierStart = true
  | .undef definition, .undefined name => IsScanIdentifier name ∧ '(' ∉ definition
  | .line l, .objectLike name value =>
    (ltrimAsciiView l.rawLine).head? = some '#' ∧ IsScanIdentifier name ∧ value.head? ≠ some '('
  | .line l, .undefined name => (ltrimAsciiView l.rawLine).head? = some '#' ∧ IsScanIdentifier name
  | _, _ => False

/-- The scan reads the setting as what it is, or finds the table as the setting and its
own reading of it have it. -/
def Setting.Faithful (s : ScanStreamState) (setting : Setting) : Prop :=
  (∃ event ∈ setting.event s, setting.ReadsAs event) ∨
    (∀ event ∈ setting.event s, event.Holds s.objectLikeMacros) ∧
      ∀ event ∈ setting.taken s, IsMacroName event.name → event.Holds s.objectLikeMacros

instance (text : List Char) : Decidable (IsScanIdentifier text) := inferInstanceAs (Decidable (_ ∧ _))

instance (name : List Char) : Decidable (IsMacroName name) := inferInstanceAs (Decidable (_ ∧ _))

instance (macros : MacroTable) (event : MacroEvent) : Decidable (event.Holds macros) :=
  inferInstanceAs (Decidable (_ = _))

instance : (setting : Setting) → (event : MacroEvent) → Decidable (setting.ReadsAs event)
  | .define _, .objectLike _ _ => inferInstanceAs (Decidable (_ ∧ _))
  | .undef _, .undefined _ => inferInstanceAs (Decidable (_ ∧ _))
  | .line _, .objectLike _ _ => inferInstanceAs (Decidable (_ ∧ _ ∧ _))
  | .line _, .undefined _ => inferInstanceAs (Decidable (_ ∧ _))
  | .define _, .functionLike _ | .define _, .undefined _ | .undef _, .objectLike _ _ | .undef _, .functionLike _
  | .line _, .functionLike _ => inferInstanceAs (Decidable False)

instance (s : ScanStreamState) (setting : Setting) : Decidable (setting.Faithful s) :=
  inferInstanceAs (Decidable (_ ∨ _ ∧ _))

/-- Every setting of a run is faithful in the state it meets. -/
def FaithfulRun (s : ScanStreamState) : List Setting → Prop
  | [] => True
  | setting :: settings => setting.Faithful s ∧ FaithfulRun (s.apply setting) settings

instance decidableFaithfulRun : (s : ScanStreamState) → (settings : List Setting) → Decidable (FaithfulRun s settings)
  | _, [] => inferInstanceAs (Decidable True)
  | s, setting :: settings =>
    have := decidableFaithfulRun (s.apply setting) settings
    inferInstanceAs (Decidable (setting.Faithful s ∧ FaithfulRun (s.apply setting) settings))

-- ---------------------------------------------------------------------------
-- Identifiers
-- ---------------------------------------------------------------------------

section

variable {text name behind : List Char} {macros macros' : MacroTable} {events : List MacroEvent} {event : MacroEvent}
  {s : ScanStreamState} {setting : Setting}

theorem IsScanIdentifier.exists_cons (h : IsScanIdentifier name) :
    ∃ ch rest, name = ch :: rest ∧ isScanIdentifierStart ch = true ∧ ∀ c ∈ name, isScanIdentifierContinue c = true := by
  obtain ⟨hstart, hall⟩ := h
  cases name with
  | nil => cases hstart
  | cons ch rest => exact ⟨ch, rest, rfl, by simpa using hstart, List.all_eq_true.mp hall⟩

@[simp] theorem MacroTable.define_same (macros : MacroTable) (name value : List Char) :
    macros.define name value name = some value := Function.update_self ..

theorem MacroTable.define_other {other : List Char} (h : other ≠ name) (value : List Char) :
    macros.define name value other = macros other := Function.update_of_ne h ..

@[simp] theorem MacroTable.undefine_same (macros : MacroTable) (name : List Char) :
    macros.undefine name name = none := Function.update_self ..

theorem MacroTable.undefine_other {other : List Char} (h : other ≠ name) :
    macros.undefine name other = macros other := Function.update_of_ne h ..

def MacroTable.entered (macros : MacroTable) (event? : Option MacroEvent) (name : List Char) : Option (List Char) :=
  match event? with
  | some event => if event.name = name then event.value? else (macros name).map trimAsciiView
  | none => (macros name).map trimAsciiView

end

end Gentest.Scan
