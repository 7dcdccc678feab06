import Gentest.Codegen.TopLevelItems
import Gentest.Lib.Fallible
import Mathlib.Data.List.TakeWhile

/-!
# Rows of parameter and template packs

A row is a text in parentheses whose items stand between its top-level commas.
`parameters_pack` tells a row by the number of its items that are not blank, a
template pack by its first and last byte and by the blank items that it notices.
-/

namespace Gentest.Codegen

-- ---------------------------------------------------------------------------
-- `parameters_pack`
-- ---------------------------------------------------------------------------

structure ParamPack where
  names : List (List Char)
  rows : List (List (List Char))
  deriving DecidableEq

/-- One round of the loop over the value tuples: the row that is stored, or what is
reported. -/
def readRow (names : List (List Char)) (text : List Char) : Except String (List (List Char)) :=
  let row := parseTuple text
  if row.length ≠ names.length then .error "'parameters_pack' value tuple arity mismatch" else .ok row

/-- What is reported, and the pack unless there is none. -/
def parametersPack : List (List Char) → List String × Option ParamPack
  | first :: second :: more =>
    let names := parseTuple first
    if names = [] then (["'parameters_pack' first tuple must list at least one parameter name"], none)
    else
      let read := (second :: more).map (readRow names)
      let errors := read.filterMap fun row => match row with | .error message => some message | .ok _ => none
      let rows := read.filterMap Except.toOption
      if rows = [] then (errors ++ ["'parameters_pack' requires at least one value tuple"], none)
      else (errors, some ⟨names, rows⟩)
  | _ => (["'parameters_pack' requires a parameter name tuple and at least one value tuple"], none)

-- ---------------------------------------------------------------------------
-- Template packs
-- ---------------------------------------------------------------------------

inductive TemplateParamKind where
  | type
  | value
  | template
  deriving DecidableEq, Repr

structure TemplateParamInfo where
  name : String
  kind : TemplateParamKind
  isPack : Bool
  deriving DecidableEq

structure TemplateBindingSet where
  paramName : String
  candidates : List (List Char)
  deriving DecidableEq

def isParenthesizedRow (text : List Char) : Bool :=
  let trimmed := trimView text
  2 ≤ trimmed.length && trimmed.head? == some '(' && trimmed.getLast? == some ')'

def parseParenthesizedRow (text : List Char) : SplitTopLevelItemsResult :=
  let trimmed := trimView text
  if isParenthesizedRow text then splitTopLevelItemsResult (trimmed.drop 1).dropLast
  else { parts := [trimmed] }

def checkCandidate (param : TemplateParamInfo) (candidate : List Char) : Except String Unit :=
  let rows := " rows in 'template(" ++ param.name ++ ", ...)'"
  if param.isPack && !isParenthesizedRow candidate then
    .error ("template parameter pack '" ++ param.name ++ "' requires parenthesized" ++ rows)
  else if !param.isPack && isParenthesizedRow candidate then
    if param.kind = .value then .ok ()
    else .error ("non-pack template parameter '" ++ param.name ++ "' does not accept parenthesized" ++ rows)
  else if param.isPack && (parseParenthesizedRow candidate).hadEmptyItem then
    .error ("template parameter pack '" ++ param.name ++ "' does not accept empty row entries in 'template(" ++
      param.name ++ ", ...)'")
  else .ok ()

def validateTemplateBindingShape (set : TemplateBindingSet) (param : TemplateParamInfo) : Except String Unit :=
  set.candidates.forM (checkCandidate param)

def bindingRow (pack : Bool) (candidate : List Char) : List (List Char) :=
  if pack then (parseParenthesizedRow candidate).parts else [trimView candidate]

def buildBindingRows (set : TemplateBindingSet) (pack : Bool) : List (List (List Char)) :=
  set.candidates.map (bindingRow pack)

-- ---------------------------------------------------------------------------
-- Rows
-- ---------------------------------------------------------------------------

/-- Behind an opening bracket: each closing one has its opening one before it, and
nothing is open at the end. -/
def balancedFrom (depth : Nat) (quoted : Quoted) : List Char → List Char → Bool
  | _, [] => depth = 0 && quoted = none
  | before, ch :: rest =>
    match quoted with
    | some (quote, escape) => balancedFrom depth (nextQuoted quote escape ch) (ch :: before) rest
    | none =>
      if ch = '"' then balancedFrom depth (some ('"', false)) (ch :: before) rest
      else if ch = '\'' ∧ shouldEnterCharLiteral before rest then
        balancedFrom depth (some ('\'', false)) (ch :: before) rest
      else if isOpening ch then balancedFrom (depth + 1) none (ch :: before) rest
      else if isClosing ch then
        if depth = 0 then false else balancedFrom (depth - 1) none (ch :: before) rest
      else balancedFrom depth none (ch :: before) rest

/-- The text is a pair of parentheses that belong together with something inside. -/
def Enclosed (text : List Char) : Prop :=
  text = '(' :: stripOuterParens text ++ [')'] ∧ balancedFrom 0 none [] (stripOuterParens text) = true

instance (text : List Char) : Decidable (Enclosed text) := inferInstanceAs (Decidable (_ ∧ _))

def rowItems (text : List Char) : List (List Char) := topLevelItems (stripOuterParens text)

/-- A row in parentheses without a blank item, stored item by item. -/
def KeptRow (text : List Char) (stored : List (List Char)) : Prop :=
  Enclosed text ∧ (∀ item ∈ rowItems text, trimView item ≠ []) ∧ stored = (rowItems text).map trimView

instance (text : List Char) (stored : List (List Char)) : Decidable (KeptRow text stored) :=
  inferInstanceAs (Decidable (_ ∧ _ ∧ _))

/-- `()`, white space aside. -/
def EmptyRow (text : List Char) (stored : List (List Char)) : Prop :=
  Enclosed text ∧ trimView (stripOuterParens text) = [] ∧ stored = []

instance (text : List Char) (stored : List (List Char)) : Decidable (EmptyRow text stored) :=
  inferInstanceAs (Decidable (_ ∧ _ ∧ _))

theorem readRow_eq_ok {names stored : List (List Char)} {text : List Char} (h : readRow names text = .ok stored) :
    stored = keptItems trimTuple (rowItems text) ∧ stored.length = names.length := by
  simp only [readRow] at h
  split at h
  · cases h
  · rename_i hlength
    cases h
    exact ⟨parseTuple_eq text, not_not.mp hlength⟩

theorem readRow_of_length {names : List (List Char)} {text : List Char}
    (h : (keptItems trimTuple (rowItems text)).length = names.length) :
    readRow names text = .ok (keptItems trimTuple (rowItems text)) := by
  have hrow : parseTuple text = keptItems trimTuple (rowItems text) := parseTuple_eq text
  rw [readRow, hrow, if_neg (not_not.mpr h)]

theorem readRow_kept_iff (names : List (List Char)) (text : List Char) :
    (∀ stored, readRow names text = .ok stored → KeptRow text stored ∧ stored.length = names.length) ↔
      (((rowItems text).countP fun item => trimTuple item ≠ []) ≠ names.length ∨
        Enclosed text ∧ ∀ item ∈ rowItems text, trimView item ≠ [] ∧ trimTuple item = trimView item) := by
  rw [← length_keptItems]
  constructor
  · intro h
    refine or_iff_not_imp_left.mpr fun hlength => ?_
    obtain ⟨⟨henclosed, hblank, hstored⟩, -⟩ := h _ (readRow_of_length (not_not.mp hlength))
    have hall := keptItems_all (by rw [hstored, List.length_map])
    have hsame := List.map_inj_left.mp (hall.symm.trans hstored)
    exact ⟨henclosed, fun item hitem => ⟨hblank item hitem, hsame item hitem⟩⟩
  · rintro (hlength | ⟨henclosed, hitems⟩) stored hok
    · obtain ⟨rfl, hok⟩ := readRow_eq_ok hok
      exact absurd hok hlength
    · obtain ⟨rfl, hok⟩ := readRow_eq_ok hok
      refine ⟨⟨henclosed, fun item hitem => (hitems item hitem).1, ?_⟩, hok⟩
      rw [keptItems_eq_map fun item hitem => (hitems item hitem).2 ▸ (hitems item hitem).1]
      exact List.map_congr_left fun item hitem => (hitems item hitem).2

theorem parametersPack_rows {first : List Char} {texts : List (List Char)} {errors : List String} {pack : ParamPack}
    (h : parametersPack (first :: texts) = (errors, some pack)) :
    pack.names = parseTuple first ∧ pack.rows = texts.filterMap fun text => (readRow pack.names text).toOption := by
  unfold parametersPack at h
  split at h
  · rename_i second more htexts
    obtain ⟨rfl, rfl⟩ := List.cons.inj htexts
    dsimp only at h
    split at h
    · cases h
    · split at h
      · cases h
      · cases h
        exact ⟨rfl, List.filterMap_map ..⟩
  · cases h

-- ---------------------------------------------------------------------------
-- Rows of template packs
-- ---------------------------------------------------------------------------

/-- A blank item in front of another one, or directly behind the last comma. -/
def NoticedBlank (text : List Char) : Prop :=
  (rowItems text).dropLast.any (fun item => trimView item = []) ∨
    (rowItems text).getLast?.any (fun item => trimView item = []) ∧ (stripOuterParens text).getLast? = some ','

instance (text : List Char) : Decidable (NoticedBlank text) := inferInstanceAs (Decidable (_ ∨ _))

theorem parseParenthesizedRow_eq {row : List Char} (h : isParenthesizedRow row = true) :
    (parseParenthesizedRow row).parts = keptItems trimView (rowItems (trimView row)) ∧
      ((parseParenthesizedRow row).hadEmptyItem = true ↔ NoticedBlank (trimView row)) := by
  have hinner : ((trimView row).drop 1).dropLast = stripOuterParens (trimView row) := by
    simp only [isParenthesizedRow, Bool.and_eq_true, beq_iff_eq] at h
    rw [stripOuterParens, if_pos ⟨h.1.2, h.2⟩]
  rw [parseParenthesizedRow, if_pos h, hinner, splitTopLevelItemsResult_eq]
  exact ⟨rfl, by simp [NoticedBlank, rowItems]⟩

theorem checkCandidate_pack {name : String} {kind : TemplateParamKind} {row : List Char} :
    checkCandidate ⟨name, kind, true⟩ row = .ok () ↔
      isParenthesizedRow row = true ∧ ¬NoticedBlank (trimView row) := by
  cases hrow : isParenthesizedRow row with
  | false => simp [checkCandidate, hrow]
  | true =>
    have hblank := (parseParenthesizedRow_eq hrow).2
    by_cases hnoticed : NoticedBlank (trimView row)
    · simp [checkCandidate, hrow, hblank.mpr hnoticed, hnoticed]
    · have hnone : (parseParenthesizedRow row).hadEmptyItem = false := by
        rw [Bool.eq_false_iff]
        exact fun h => hnoticed (hblank.mp h)
      simp [checkCandidate, hrow, hnone, hnoticed]

theorem isSpace_not_mark {ch : Char} (h : isSpace ch = true) :
    ch ≠ '"' ∧ ch ≠ '\'' ∧ isOpening ch = false ∧ isClosing ch = false ∧ ch ≠ '<' ∧ ch ≠ '>' ∧ ch ≠ ',' := by
  have hall : ∀ ch ∈ [' ', '\t', '\n', '\x0b', '\x0c', '\r'], ch ≠ '"' ∧ ch ≠ '\'' ∧ isOpening ch = false ∧
      isClosing ch = false ∧ ch ≠ '<' ∧ ch ≠ '>' ∧ ch ≠ ',' := by decide
  exact hall ch (isSpace_cases h)

theorem Nesting.step_space {n : Nesting} (hn : n.quoted = none) {ch : Char} (h : isSpace ch = true)
    (before current rest : List Char) : Nesting.step n before current ch rest = some n := by
  obtain ⟨hquote, hchar, hopening, hclosing, hless, hgreater, hcomma⟩ := isSpace_not_mark h
  simp [Nesting.step, hn, hquote, hchar, hopening, hclosing, hless, hgreater, hcomma]

theorem itemsFrom_blank {text : List Char} (h : ∀ ch ∈ text, isSpace ch = true) (before current : List Char) :
    itemsFrom {} before current text = [current ++ text] := by
  induction text generalizing before current with
  | nil => simp [itemsFrom, Pieces.cut]
  | cons ch text ih =>
    obtain ⟨hch, htext⟩ := List.forall_mem_cons.mp h
    have hmore := ih htext (ch :: before) (current ++ [ch])
    rw [itemsFrom, Pieces.cut, Nesting.step_space rfl hch]
    simpa [itemsFrom] using hmore

theorem all_space_of_trimView {text : List Char} (h : trimView text = []) : ∀ ch ∈ text, isSpace ch = true := by
  have hback : ∀ ch ∈ text.dropWhile isSpace, isSpace ch = true := by
    rw [trimView, List.reverse_eq_nil_iff, List.dropWhile_eq_nil_iff] at h
    exact fun ch hch => h ch (List.mem_reverse.mpr hch)
  have hnone : text.dropWhile isSpace = [] := by
    cases hdrop : text.dropWhile isSpace with
    | nil => rfl
    | cons ch more =>
      have hhead := List.head?_dropWhile_not isSpace text
      rw [hdrop] at hhead hback
      exact absurd (hback ch List.mem_cons_self) (by simpa using hhead)
  exact List.dropWhile_eq_nil_iff.mp hnone

/-- A row of a template pack is kept item by item, unless it is reported: the blank
item behind white space at the end is what goes unnoticed. -/
theorem checkCandidate_kept_iff (name : String) (kind : TemplateParamKind) (row : List Char) :
    (checkCandidate ⟨name, kind, true⟩ row = .ok () →
      KeptRow (trimView row) (bindingRow true row) ∨ EmptyRow (trimView row) (bindingRow true row)) ↔
    (isParenthesizedRow row = false ∨ NoticedBlank (trimView row) ∨
      Enclosed (trimView row) ∧ ((rowItems (trimView row)).length = 1 ∨
        ∀ item ∈ (rowItems (trimView row)).getLast?, trimView item ≠ [])) := by
  rw [checkCandidate_pack]
  cases hrow : isParenthesizedRow row with
  | false => simp
  | true =>
    by_cases hnoticed : NoticedBlank (trimView row)
    · simp [hnoticed]
    have hstored : bindingRow true row = keptItems trimView (rowItems (trimView row)) :=
      (parseParenthesizedRow_eq hrow).1
    have hfront : ∀ item ∈ (rowItems (trimView row)).dropLast, trimView item ≠ [] := fun item hitem hblank =>
      hnoticed (.inl (List.any_eq_true.mpr ⟨item, hitem, decide_eq_true hblank⟩))
    obtain ⟨front, last, hitems⟩ : ∃ front last, rowItems (trimView row) = front ++ [last] :=
      (List.eq_nil_or_concat' _).resolve_left Pieces.cut_ne_nil
    rw [hitems, List.dropLast_concat] at hfront
    simp only [hnoticed, not_false_eq_true, and_self, forall_const, Bool.true_eq_false, false_or, hstored, KeptRow,
      EmptyRow, hitems, List.getLast?_concat, Option.mem_def, Option.some.injEq, forall_eq']
    constructor
    · rintro (⟨henclosed, hblank, -⟩ | ⟨henclosed, hinner, -⟩)
      · exact ⟨henclosed, .inr (hblank last (by simp))⟩
      · have hone := itemsFrom_blank (all_space_of_trimView hinner) [] []
        refine ⟨henclosed, .inl ?_⟩
        rw [← hitems, rowItems, topLevelItems, hone]
        rfl
    · rintro ⟨henclosed, hlast⟩
      by_cases hblank : trimView last = []
      · obtain hone | hlast := hlast
        · obtain rfl : front = [] := by simpa using hone
          have hinner : last = stripOuterParens (trimView row) := Pieces.cut_eq_singleton hitems
          refine .inr ⟨henclosed, hinner ▸ hblank, ?_⟩
          simp [keptItems, hblank]
        · exact absurd hblank hlast
      · have hall : ∀ item ∈ front ++ [last], trimView item ≠ [] := by
          simp only [List.mem_append, List.mem_singleton]
          rintro item (hitem | rfl)
          · exact hfront item hitem
          · exact hblank
        exact .inl ⟨henclosed, hall, keptItems_eq_map hall⟩

-- ---------------------------------------------------------------------------
-- Both kinds of rows
-- ---------------------------------------------------------------------------

/-- When no item of a row is dropped without a report. -/
theorem row_items_kept_iff (names : List (List Char)) (text : List Char) (name : String) (kind : TemplateParamKind)
    (row : List Char) :
    ((∀ stored, readRow names text = .ok stored → KeptRow text stored ∧ stored.length = names.length) ↔
      (((rowItems text).countP fun item => trimTuple item ≠ []) ≠ names.length ∨
        Enclosed text ∧ ∀ item ∈ rowItems text, trimView item ≠ [] ∧ trimTuple item = trimView item)) ∧
    ((checkCandidate ⟨name, kind, true⟩ row = .ok () →
        KeptRow (trimView row) (bindingRow true row) ∨ EmptyRow (trimView row) (bindingRow true row)) ↔
      (isParenthesizedRow row = false ∨ NoticedBlank (trimView row) ∨
        Enclosed (trimView row) ∧ ((rowItems (trimView row)).length = 1 ∨
          ∀ item ∈ (rowItems (trimView row)).getLast?, trimView item ≠ []))) :=
  ⟨readRow_kept_iff names text, checkCandidate_kept_iff name kind row⟩

/-- The rows `(1,,2)` for two names, `(1+2)*(3+4)` for one, and `(int, )` of a
template pack. -/
theorem row_items_dropped :
    (readRow [['a'], ['b']] "(1,,2)".toList = .ok [['1'], ['2']] ∧ ¬KeptRow "(1,,2)".toList [['1'], ['2']]) ∧
    (readRow [['a']] "(1+2)*(3+4)".toList = .ok ["1+2)*(3+4".toList] ∧
      ¬KeptRow "(1+2)*(3+4)".toList ["1+2)*(3+4".toList]) ∧
    checkCandidate ⟨"T", .type, true⟩ "(int, )".toList = .ok () ∧
      ¬KeptRow "(int, )".toList (bindingRow true "(int, )".toList) ∧
      ¬EmptyRow "(int, )".toList (bindingRow true "(int, )".toList) := by
  refine ⟨⟨?_, ?_⟩, ⟨?_, ?_⟩, ?_, ?_, ?_⟩
  all_goals decide

end Gentest.Codegen
