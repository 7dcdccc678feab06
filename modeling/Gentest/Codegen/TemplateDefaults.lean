import Gentest.Codegen.AttributeText
import Gentest.Lib.Trimming

/-!
# Default template arguments

A template parameter list is split at its commas and each parameter cut at its `=`, both
where the four bracket counters stand at 0. The counters take every `<` and `>` for a
bracket.
-/

namespace Gentest.Codegen

-- ---------------------------------------------------------------------------
-- The code
-- ---------------------------------------------------------------------------

def trimAscii (text : List Char) : List Char := Trimming.trim isSpace text

structure BracketDepth where
  angles : Nat := 0
  parens : Nat := 0
  braces : Nat := 0
  square : Nat := 0
  deriving DecidableEq, Repr

def BracketDepth.step (depth : BracketDepth) (ch : Char) : BracketDepth :=
  match ch with
  | '<' => { depth with angles := depth.angles + 1 }
  | '>' => { depth with angles := depth.angles - 1 }
  | '(' => { depth with parens := depth.parens + 1 }
  | ')' => { depth with parens := depth.parens - 1 }
  | '\x7b' => { depth with braces := depth.braces + 1 }
  | '\x7d' => { depth with braces := depth.braces - 1 }
  | '[' => { depth with square := depth.square + 1 }
  | ']' => { depth with square := depth.square - 1 }
  | _ => depth

def splitTopLevelCommasFrom (depth : BracketDepth) (current : List Char) : List Char → List (List Char)
  | [] => [trimAscii current]
  | ch :: text =>
    if ch = ',' ∧ depth = {} then trimAscii current :: splitTopLevelCommasFrom depth [] text
    else splitTopLevelCommasFrom (depth.step ch) (current ++ [ch]) text

def splitTopLevelCommas (text : List Char) : List (List Char) := splitTopLevelCommasFrom {} [] text

/-- The text up to the first `=` outside of brackets. -/
def beforeDefault (depth : BracketDepth) : List Char → List Char
  | [] => []
  | ch :: clause => if ch = '=' ∧ depth = {} then [] else ch :: beforeDefault (depth.step ch) clause

def stripDefaultTemplateArgument (clause : List Char) : List Char := trimAscii (beforeDefault {} clause)

/-- A prefix without `<`, or without `>` behind it, is returned as it is. -/
def templatePrefixWithoutDefaults (templatePrefix : List Char) : List Char :=
  let behind := (templatePrefix.dropWhile (· ≠ '<')).tail
  let clauseText := (behind.rdropWhile (· ≠ '>')).dropLast
  if behind.contains '>' then
    templatePrefix.takeWhile (· ≠ '<') ++
      '<' :: [',', ' '].intercalate ((splitTopLevelCommas clauseText).map stripDefaultTemplateArgument) ++
        '>' :: behind.rtakeWhile (· ≠ '>')
  else templatePrefix

-- ---------------------------------------------------------------------------
-- Parameter lists
-- ---------------------------------------------------------------------------

structure TemplateParameter where
  declaration : List Char
  defaultArgument : Option (List Char) := none
  deriving DecidableEq, Repr

def TemplateParameter.written (parameter : TemplateParameter) : List Char :=
  parameter.declaration ++ (parameter.defaultArgument.elim [] ('=' :: ·))

/-- `template < interior >` -/
def templatePrefixOf (blanks interior : List Char) : List Char :=
  "template".toList ++ blanks ++ '<' :: (interior ++ ['>'])

def tightened (text : List Char) : List Char := [','].intercalate ((text.splitOn ',').map trimAscii)

/-- The list comes back with the declarations of its parameters, up to white space around
commas. -/
def DefaultsStripped (blanks : List Char) (parameters : List TemplateParameter) : Prop :=
  ∃ interior,
    templatePrefixWithoutDefaults (templatePrefixOf blanks ([','].intercalate (parameters.map (·.written)))) =
        templatePrefixOf blanks interior ∧
      tightened interior = [','].intercalate (parameters.map fun parameter => tightened parameter.declaration)

-- ---------------------------------------------------------------------------
-- The condition
-- ---------------------------------------------------------------------------

/-- The brackets of a kind that are open behind a text, operators taken for brackets; what
closes nothing is passed over. -/
def openBrackets (opens closes : Char) (text : List Char) : Nat :=
  text.foldl (fun open_ ch => if ch = opens then open_ + 1 else if ch = closes then open_ - 1 else open_) 0

def NoneOpen (text : List Char) : Prop :=
  openBrackets '<' '>' text = 0 ∧ openBrackets '(' ')' text = 0 ∧ openBrackets '\x7b' '\x7d' text = 0 ∧
    openBrackets '[' ']' text = 0

instance (text : List Char) : Decidable (NoneOpen text) := inferInstanceAs (Decidable (_ ∧ _ ∧ _ ∧ _))

/-- Behind `front`, the character stands in the text only where a bracket is open. -/
def OnlyInside (stop : Char) : List Char → List Char → Prop
  | _, [] => True
  | front, ch :: text => (ch = stop → ¬NoneOpen front) ∧ OnlyInside stop (front ++ [ch]) text

/-- The `=` of the default is the first one outside of brackets, and the default has no
comma outside of brackets. -/
def TemplateParameter.Delimited (front : List Char) (parameter : TemplateParameter) : Prop :=
  OnlyInside '=' front parameter.declaration ∧
    match parameter.defaultArgument with
    | none => True
    | some argument => NoneOpen (front ++ parameter.declaration) ∧
        OnlyInside ',' (front ++ parameter.declaration ++ ['=']) argument

/-- Each parameter is delimited, and behind a default no bracket is open at the comma. -/
def Delimited : List Char → List TemplateParameter → Prop
  | _, [] => True
  | front, parameter :: parameters =>
    parameter.Delimited front ∧
      (parameters ≠ [] → parameter.defaultArgument.isSome = true → NoneOpen (front ++ parameter.written)) ∧
        Delimited (front ++ parameter.written ++ [',']) parameters

instance OnlyInside.decide (stop : Char) : (front text : List Char) → Decidable (OnlyInside stop front text)
  | _, [] => inferInstanceAs (Decidable True)
  | front, ch :: text =>
    have := OnlyInside.decide stop (front ++ [ch]) text
    inferInstanceAs (Decidable (_ ∧ _))

instance (front : List Char) : (parameter : TemplateParameter) → Decidable (parameter.Delimited front)
  | { declaration := _, defaultArgument := none } => inferInstanceAs (Decidable (_ ∧ True))
  | { declaration := _, defaultArgument := some _ } => inferInstanceAs (Decidable (_ ∧ _ ∧ _))

instance Delimited.decide : (front : List Char) → (parameters : List TemplateParameter) →
    Decidable (Delimited front parameters)
  | _, [] => inferInstanceAs (Decidable True)
  | front, parameter :: parameters =>
    have := Delimited.decide (front ++ parameter.written ++ [',']) parameters
    inferInstanceAs (Decidable (_ ∧ _ ∧ _))

-- ---------------------------------------------------------------------------
-- The counters
-- ---------------------------------------------------------------------------

variable {text clause front : List Char} {depth : BracketDepth} {keeping : Bool} {parameter : TemplateParameter}
  {parameters : List TemplateParameter}

theorem BracketDepth.foldl_step (depth : BracketDepth) (text : List Char) :
    text.foldl BracketDepth.step depth =
      { angles := text.foldl (fun n ch => if ch = '<' then n + 1 else if ch = '>' then n - 1 else n) depth.angles
        parens := text.foldl (fun n ch => if ch = '(' then n + 1 else if ch = ')' then n - 1 else n) depth.parens
        braces :=
          text.foldl (fun n ch => if ch = '\x7b' then n + 1 else if ch = '\x7d' then n - 1 else n) depth.braces
        square := text.foldl (fun n ch => if ch = '[' then n + 1 else if ch = ']' then n - 1 else n) depth.square } := by
  induction text generalizing depth with
  | nil => rfl
  | cons ch text ih =>
    rw [List.foldl_cons, ih]
    simp only [List.foldl_cons]
    clear ih
    unfold BracketDepth.step
    split
    case h_9 hangle hangle' hparen hparen' hbrace hbrace' hsquare hsquare' =>
      rw [if_neg hangle, if_neg hangle', if_neg hparen, if_neg hparen', if_neg hbrace, if_neg hbrace', if_neg hsquare,
        if_neg hsquare']
    all_goals simp only [Char.reduceEq, reduceIte]

theorem noneOpen_iff : NoneOpen text ↔ text.foldl BracketDepth.step {} = {} := by
  rw [BracketDepth.foldl_step, BracketDepth.mk.injEq]
  rfl

-- ---------------------------------------------------------------------------
-- What is kept
-- ---------------------------------------------------------------------------

def rawClauses (depth : BracketDepth) : List Char → List (List Char)
  | [] => [[]]
  | ch :: text =>
    if ch = ',' ∧ depth = {} then [] :: rawClauses depth text
    else (rawClauses (depth.step ch) text).modifyHead (ch :: ·)

/-- What is left of a text when each clause is cut at its `=`. -/
def keptText (depth : BracketDepth) (keeping : Bool) : List Char → List Char
  | [] => []
  | ch :: text =>
    if ch = ',' ∧ depth = {} then ',' :: keptText depth true text
    else if ch = '=' ∧ depth = {} then keptText depth false text
    else (if keeping then [ch] else []) ++ keptText (depth.step ch) keeping text

theorem rawClauses_ne_nil (depth : BracketDepth) (text : List Char) : rawClauses depth text ≠ [] := by
  induction text generalizing depth with
  | nil => exact List.cons_ne_nil _ _
  | cons ch text ih =>
    rw [rawClauses]
    split
    · exact List.cons_ne_nil _ _
    · exact fun h => ih (depth.step ch) (List.modifyHead_eq_nil_iff.mp h)

theorem exists_rawClauses (depth : BracketDepth) (text : List Char) :
    ∃ clause clauses, rawClauses depth text = clause :: clauses :=
  List.exists_cons_of_ne_nil (rawClauses_ne_nil depth text)

theorem splitTopLevelCommasFrom_eq (current : List Char) :
    splitTopLevelCommasFrom depth current text = ((rawClauses depth text).modifyHead (current ++ ·)).map trimAscii := by
  induction text generalizing depth current with
  | nil => simp [splitTopLevelCommasFrom, rawClauses]
  | cons ch text ih =>
    rw [splitTopLevelCommasFrom, rawClauses]
    split
    · obtain ⟨clause, clauses, hclauses⟩ := exists_rawClauses depth text
      rw [ih, hclauses]
      simp
    · obtain ⟨clause, clauses, hclauses⟩ := exists_rawClauses (depth.step ch) text
      rw [ih, hclauses]
      simp

theorem splitTopLevelCommas_eq (text : List Char) : splitTopLevelCommas text = (rawClauses {} text).map trimAscii := by
  obtain ⟨clause, clauses, hclauses⟩ := exists_rawClauses {} text
  rw [splitTopLevelCommas, splitTopLevelCommasFrom_eq, hclauses]
  rfl

theorem keptText_eq {clauses : List (List Char)} (h : rawClauses depth text = clause :: clauses) :
    keptText depth keeping text =
      [','].intercalate ((if keeping then beforeDefault depth clause else []) :: clauses.map (beforeDefault {})) := by
  induction text generalizing depth keeping clause clauses with
  | nil =>
    rw [rawClauses, List.cons.injEq] at h
    rw [← h.1, ← h.2]
    simp [keptText, beforeDefault]
  | cons ch text ih =>
    rw [rawClauses] at h
    rw [keptText]
    split
    · rename_i hcomma
      rw [if_pos hcomma, List.cons.injEq] at h
      obtain ⟨next, rest, hnext⟩ := exists_rawClauses depth text
      rw [ih hnext, ← h.1, ← h.2, hnext, List.map_cons, List.intercalate_cons_cons, hcomma.2]
      simp [beforeDefault]
    · rename_i hcomma
      rw [if_neg hcomma] at h
      obtain ⟨next, rest, hnext⟩ := exists_rawClauses (depth.step ch) text
      rw [hnext, List.modifyHead_cons, List.cons.injEq] at h
      rw [← h.1, ← h.2, beforeDefault]
      split
      · rename_i hequals
        have hstep : depth.step ch = depth := by rw [hequals.1]; rfl
        rw [hstep] at hnext
        rw [ih hnext]
        simp
      · rw [ih hnext]
        cases keeping <;> cases rest <;> simp [List.intercalate_cons_cons]

theorem step_of_space {ch : Char} (h : isSpace ch = true) : depth.step ch = depth := by
  have hcases := isSpace_cases h
  simp only [List.mem_cons, List.not_mem_nil, or_false] at hcases
  obtain rfl | rfl | rfl | rfl | rfl | rfl := hcases <;> rfl

theorem beforeDefault_blanks {blanks : List Char} (h : ∀ ch ∈ blanks, isSpace ch = true) :
    beforeDefault depth (blanks ++ text) = blanks ++ beforeDefault depth text := by
  induction blanks with
  | nil => rfl
  | cons ch blanks ih =>
    have hblank := h ch List.mem_cons_self
    have hstep : depth.step ch = depth := step_of_space hblank
    have hequals : ch ≠ '=' := by
      rintro rfl
      cases hblank
    rw [List.cons_append, beforeDefault, if_neg fun hcut => hequals hcut.1, hstep,
      ih fun ch hch => h ch (List.mem_cons_of_mem _ hch)]
    rfl

theorem beforeDefault_append_blanks {blanks : List Char} (h : ∀ ch ∈ blanks, isSpace ch = true) :
    ∃ more, (∀ ch ∈ more, isSpace ch = true) ∧ beforeDefault depth (text ++ blanks) = beforeDefault depth text ++ more := by
  induction text generalizing depth with
  | nil =>
    have hblanks : beforeDefault depth (blanks ++ []) = blanks ++ beforeDefault depth [] := beforeDefault_blanks h
    rw [List.append_nil] at hblanks
    exact ⟨blanks, h, by simpa [beforeDefault] using hblanks⟩
  | cons ch text ih =>
    rw [List.cons_append, beforeDefault, beforeDefault]
    split
    · exact ⟨[], nofun, rfl⟩
    · obtain ⟨more, hmore, hcut⟩ := @ih (depth.step ch)
      exact ⟨more, hmore, by rw [hcut]; rfl⟩

theorem strip_trim (clause : List Char) :
    stripDefaultTemplateArgument (trimAscii clause) = trimAscii (beforeDefault {} clause) := by
  obtain ⟨front, back, hclause, hfront, hback⟩ := Trimming.exists_trim isSpace clause
  obtain ⟨more, hmore, hcut⟩ : ∃ more, (∀ ch ∈ more, isSpace ch = true) ∧
      beforeDefault {} (trimAscii clause ++ back) = beforeDefault {} (trimAscii clause) ++ more :=
    beforeDefault_append_blanks hback
  rw [← trimAscii] at hclause
  conv_rhs => rw [hclause, List.append_assoc, beforeDefault_blanks hfront, hcut]
  exact ((Trimming.trim_all_left hfront _).trans (Trimming.trim_all_right _ hmore)).symm

-- ---------------------------------------------------------------------------
-- White space around commas
-- ---------------------------------------------------------------------------

theorem tightened_append_comma (x y : List Char) : tightened (x ++ ',' :: y) = tightened x ++ ',' :: tightened y := by
  have happend : ∀ {parts others : List (List Char)}, parts ≠ [] → others ≠ [] →
      [','].intercalate (parts ++ others) = [','].intercalate parts ++ ',' :: [','].intercalate others := by
    intro parts others hparts hothers
    induction parts with
    | nil => exact absurd rfl hparts
    | cons part parts ih =>
      cases parts with
      | nil =>
        obtain ⟨other, others, rfl⟩ := List.exists_cons_of_ne_nil hothers
        simp [List.intercalate_cons_cons]
      | cons next parts =>
        rw [List.cons_append, List.cons_append, List.intercalate_cons_cons, ← List.cons_append,
          ih (List.cons_ne_nil _ _), List.intercalate_cons_cons]
        simp
  rw [tightened, List.splitOn_append_cons_self, List.map_append]
  exact happend (by simp) (by simp)

theorem tightened_blank {ch : Char} (h : isSpace ch = true) (x : List Char) : tightened (ch :: x) = tightened x := by
  have hcomma : (ch == ',') = false := by
    rw [beq_eq_false_iff_ne]
    rintro rfl
    cases h
  obtain ⟨part, parts, hparts⟩ := List.exists_cons_of_ne_nil (List.splitOn_ne_nil ',' x)
  rw [tightened, tightened, List.splitOn_cons_eq_if_modifyHead, hcomma, hparts]
  have htrim : trimAscii (ch :: part) = trimAscii part :=
    Trimming.trim_all_left (x := [ch]) (by simpa using h) part
  simp only [Bool.false_eq_true, if_false, List.modifyHead_cons, List.map_cons, htrim]

theorem tightened_blanks {blanks : List Char} (h : ∀ ch ∈ blanks, isSpace ch = true) (x : List Char) :
    tightened (blanks ++ x) = tightened x := by
  induction blanks with
  | nil => rfl
  | cons ch blanks ih =>
    rw [List.cons_append, tightened_blank (h ch List.mem_cons_self)]
    exact ih fun ch hch => h ch (List.mem_cons_of_mem _ hch)

theorem tightened_blanks_right {blanks : List Char} (h : ∀ ch ∈ blanks, isSpace ch = true) (x : List Char) :
    tightened (x ++ blanks) = tightened x := by
  by_cases hcomma : ',' ∈ x
  · obtain ⟨front, rest, hx, -⟩ := List.eq_append_cons_of_mem hcomma
    have hshorter : rest.length < x.length := by
      rw [hx]
      simp
      omega
    rw [hx, List.append_assoc, List.cons_append, tightened_append_comma, tightened_append_comma,
      tightened_blanks_right h rest]
  · have hblanks : ',' ∉ x ++ blanks := by
      rw [List.mem_append, not_or]
      exact ⟨hcomma, fun hmem => by cases h _ hmem⟩
    rw [tightened, tightened, List.splitOn_eq_singleton hcomma, List.splitOn_eq_singleton hblanks]
    simp only [List.map_cons, List.map_nil, trimAscii, Trimming.trim_all_right x h]
termination_by x.length

theorem tightened_trim (x : List Char) : tightened (trimAscii x) = tightened x := by
  obtain ⟨front, back, hx, hfront, hback⟩ := Trimming.exists_trim isSpace x
  conv_rhs => rw [hx, List.append_assoc, tightened_blanks hfront, tightened_blanks_right hback]
  rfl

theorem tightened_intercalate {blanks : List Char} (h : ∀ ch ∈ blanks, isSpace ch = true)
    (parts : List (List Char)) :
    tightened ((',' :: blanks).intercalate parts) = [','].intercalate (parts.map tightened) := by
  induction parts with
  | nil => rfl
  | cons part parts ih =>
    cases parts with
    | nil => simp
    | cons next parts =>
      rw [List.intercalate_cons_cons, List.append_assoc, List.cons_append, tightened_append_comma, tightened_blanks h,
        ih]
      simp only [List.map_cons, List.intercalate_cons_cons, List.append_assoc, List.singleton_append]

/-- The clauses of a list that are stripped and joined again are the kept text of the list. -/
theorem tightened_clauses (text : List Char) :
    tightened ([',', ' '].intercalate ((splitTopLevelCommas text).map stripDefaultTemplateArgument)) =
      tightened (keptText {} true text) := by
  obtain ⟨clause, clauses, hclauses⟩ := exists_rawClauses {} text
  have hstrip : (splitTopLevelCommas text).map stripDefaultTemplateArgument =
      ((clause :: clauses).map (beforeDefault {})).map trimAscii := by
    rw [splitTopLevelCommas_eq, hclauses, List.map_map, List.map_map]
    exact List.map_congr_left fun clause _ => strip_trim clause
  have htrim : ∀ parts : List (List Char), (parts.map trimAscii).map tightened = parts.map tightened := by
    intro parts
    rw [List.map_map]
    exact List.map_congr_left fun part _ => tightened_trim part
  rw [keptText_eq hclauses, hstrip, tightened_intercalate (by decide), htrim, if_pos rfl, ← List.map_cons,
    tightened_intercalate (List.forall_mem_nil _)]

-- ---------------------------------------------------------------------------
-- Parameters
-- ---------------------------------------------------------------------------

theorem keptText_declaration (hinside : OnlyInside '=' front text) (rest : List Char) :
    keptText (front.foldl BracketDepth.step {}) true (text ++ rest) =
      text ++ keptText ((front ++ text).foldl BracketDepth.step {}) true rest := by
  induction text generalizing front with
  | nil => rw [List.append_nil]; rfl
  | cons ch text ih =>
    obtain ⟨hstop, hinside⟩ := hinside
    have hmore := ih hinside
    rw [List.foldl_append, List.foldl_cons, List.foldl_nil, List.append_assoc, List.singleton_append] at hmore
    rw [List.cons_append, keptText]
    split
    · rename_i hcomma
      have hstep : (front.foldl BracketDepth.step {}).step ch = front.foldl BracketDepth.step {} := by
        rw [hcomma.1]
        rfl
      rw [hstep] at hmore
      rw [hmore, hcomma.1]
      rfl
    · rw [if_neg fun hequals => hstop hequals.1 (noneOpen_iff.mpr hequals.2), hmore]
      rfl

theorem keptText_default (hinside : OnlyInside ',' front text) (rest : List Char) :
    keptText (front.foldl BracketDepth.step {}) false (text ++ rest) =
      keptText ((front ++ text).foldl BracketDepth.step {}) false rest := by
  induction text generalizing front with
  | nil => rw [List.append_nil]; rfl
  | cons ch text ih =>
    obtain ⟨hstop, hinside⟩ := hinside
    have hmore := ih hinside
    rw [List.foldl_append, List.foldl_cons, List.foldl_nil, List.append_assoc, List.singleton_append] at hmore
    rw [List.cons_append, keptText, if_neg fun hcomma => hstop hcomma.1 (noneOpen_iff.mpr hcomma.2)]
    split
    · rename_i hequals
      have hstep : (front.foldl BracketDepth.step {}).step ch = front.foldl BracketDepth.step {} := by
        rw [hequals.1]
        rfl
      rw [hstep] at hmore
      exact hmore
    · exact hmore

theorem keptText_parameter (h : parameter.Delimited front) (rest : List Char) :
    keptText (front.foldl BracketDepth.step {}) true (parameter.written ++ rest) =
      parameter.declaration ++
        keptText ((front ++ parameter.written).foldl BracketDepth.step {}) parameter.defaultArgument.isNone rest := by
  obtain ⟨declaration, defaultArgument⟩ := parameter
  obtain ⟨hdeclaration, hdefault⟩ := h
  cases defaultArgument with
  | none => simpa [TemplateParameter.written] using keptText_declaration hdeclaration rest
  | some argument =>
    obtain ⟨hnone, hargument⟩ := hdefault
    have hdropped := keptText_default hargument rest
    have hdepth := noneOpen_iff.mp hnone
    have hequals : (front ++ declaration ++ ['=']).foldl BracketDepth.step {} = {} := by
      rw [List.foldl_append, hdepth]
      rfl
    rw [TemplateParameter.written, Option.elim_some, List.append_assoc, keptText_declaration hdeclaration]
    dsimp only at hdepth ⊢
    rw [hequals] at hdropped
    rw [hdepth, List.cons_append, keptText, if_neg (by simp), if_pos ⟨rfl, rfl⟩, hdropped]
    simp only [List.append_assoc, List.singleton_append, Option.isNone_some]

theorem keptText_comma (h : keeping = true ∨ depth = {}) (rest : List Char) :
    keptText depth keeping (',' :: rest) = ',' :: keptText depth true rest := by
  rw [keptText]
  split
  · rfl
  · rename_i hopen
    rw [h.resolve_right fun hdepth => hopen ⟨rfl, hdepth⟩, if_neg (by simp)]
    rfl

theorem keptText_parameters (h : Delimited front parameters) :
    keptText (front.foldl BracketDepth.step {}) true ([','].intercalate (parameters.map (·.written))) =
      [','].intercalate (parameters.map (·.declaration)) := by
  induction parameters generalizing front with
  | nil => rfl
  | cons parameter parameters ih =>
    obtain ⟨hparameter, hcomma, hrest⟩ := h
    cases parameters with
    | nil => simpa [keptText] using keptText_parameter hparameter []
    | cons next parameters =>
      have hmore := ih hrest
      rw [List.map_cons, List.map_cons, List.intercalate_cons_cons, List.append_assoc, List.singleton_append,
        keptText_parameter hparameter, List.map_cons, List.map_cons, List.intercalate_cons_cons, List.append_assoc,
        List.singleton_append]
      have hkept : parameter.defaultArgument.isNone = true ∨
          (front ++ parameter.written).foldl BracketDepth.step {} = {} := by
        cases hdefault : parameter.defaultArgument with
        | none => exact .inl rfl
        | some argument =>
          exact .inr (noneOpen_iff.mp (hcomma (List.cons_ne_nil _ _) (by rw [hdefault]; rfl)))
      have hstep : (front ++ parameter.written ++ [',']).foldl BracketDepth.step {} =
          (front ++ parameter.written).foldl BracketDepth.step {} := by
        rw [List.foldl_append]
        rfl
      rw [keptText_comma hkept, ← hstep]
      exact congrArg (parameter.declaration ++ ',' :: ·) hmore

-- ---------------------------------------------------------------------------
-- The list
-- ---------------------------------------------------------------------------

theorem templatePrefixWithoutDefaults_of (hfront : '<' ∉ front) (interior : List Char) :
    templatePrefixWithoutDefaults (front ++ '<' :: (interior ++ ['>'])) =
      front ++ '<' ::
        ([',', ' '].intercalate ((splitTopLevelCommas interior).map stripDefaultTemplateArgument) ++ ['>']) := by
  have hpass : ∀ ch ∈ front, (decide (ch ≠ '<')) = true := by
    intro ch hch
    rw [decide_eq_true_eq]
    rintro rfl
    exact hfront hch
  unfold templatePrefixWithoutDefaults
  rw [Trimming.dropWhile_all hpass, List.takeWhile_append_of_pos hpass]
  simp

theorem not_mem_template {blanks : List Char} (hblanks : ∀ ch ∈ blanks, isSpace ch = true) :
    '<' ∉ "template".toList ++ blanks := by
  rw [List.mem_append, not_or]
  exact ⟨by decide, fun hmem => by cases hblanks _ hmem⟩

/-- Where the list is delimited, exactly the defaults are stripped. -/
theorem defaults_stripped {blanks : List Char} (hblanks : ∀ ch ∈ blanks, isSpace ch = true)
    (hdelimited : Delimited [] parameters) : DefaultsStripped blanks parameters := by
  refine ⟨_, templatePrefixWithoutDefaults_of (not_mem_template hblanks) _, ?_⟩
  rw [tightened_clauses]
  have hkept := keptText_parameters hdelimited
  rw [List.foldl_nil] at hkept
  rw [hkept, tightened_intercalate (List.forall_mem_nil _), List.map_map]
  rfl

def smallParameters : List TemplateParameter :=
  [{ declaration := "typename T".toList },
    { declaration := " std::enable_if_t<(sizeof(T) < 4), int> ".toList, defaultArgument := some " 0".toList }]

/-- `template <typename T, std::enable_if_t<(sizeof(T) < 4), int> = 0>` keeps its default. -/
theorem lessThan_not_stripped : ¬DefaultsStripped [' '] smallParameters := by
  rintro ⟨interior, hstarts, hinterior⟩
  rw [show templatePrefixWithoutDefaults
      (templatePrefixOf [' '] ([','].intercalate (smallParameters.map (·.written)))) =
        templatePrefixOf [' '] "typename T, std::enable_if_t<(sizeof(T) < 4), int> = 0".toList by decide +kernel]
    at hstarts
  have hinner := List.append_cancel_right (List.cons.inj (List.append_cancel_left hstarts)).2
  rw [← hinner] at hinterior
  exact absurd hinterior (by decide +kernel)

def largeParameters : List TemplateParameter :=
  [{ declaration := "typename T".toList },
    { declaration := " bool Large ".toList, defaultArgument := some " (sizeof(T) > 4)".toList },
    { declaration := " std::enable_if_t<(sizeof(T) >= 4), int> ".toList, defaultArgument := some " 0".toList }]

theorem greaterThan_stripped : DefaultsStripped [' '] largeParameters :=
  defaults_stripped (by decide) (by decide +kernel)

-- ---------------------------------------------------------------------------
-- Lists without operators
-- ---------------------------------------------------------------------------

def bracketPairs : List (Char × Char) := [('<', '>'), ('(', ')'), ('\x7b', '\x7d'), ('[', ']')]

/-- The brackets of the text pair up, and outside of them there are only free characters. -/
inductive Balanced : (Char → Bool) → List Char → Prop
  | nil {free} : Balanced free []
  | char {free ch text} : (∀ pair ∈ bracketPairs, ch ≠ pair.1 ∧ ch ≠ pair.2) → free ch = true →
    Balanced free text → Balanced free (ch :: text)
  | group {free opens closes body text} : (opens, closes) ∈ bracketPairs → Balanced (fun _ => true) body →
    Balanced free text → Balanced free (opens :: body ++ closes :: text)

theorem step_of_not_bracket {ch : Char} (h : ∀ pair ∈ bracketPairs, ch ≠ pair.1 ∧ ch ≠ pair.2) :
    depth.step ch = depth := by
  simp only [bracketPairs, List.forall_mem_cons] at h
  obtain ⟨⟨h1, h2⟩, ⟨h3, h4⟩, ⟨h5, h6⟩, ⟨h7, h8⟩, -⟩ := h
  unfold BracketDepth.step
  split
  case h_9 => rfl
  all_goals contradiction

theorem step_pair {opens closes : Char} (h : (opens, closes) ∈ bracketPairs) :
    (depth.step opens).step closes = depth ∧ depth.step opens ≠ {} := by
  simp only [bracketPairs, List.mem_cons, List.not_mem_nil, or_false, Prod.mk.injEq] at h
  obtain ⟨rfl, rfl⟩ | ⟨rfl, rfl⟩ | ⟨rfl, rfl⟩ | ⟨rfl, rfl⟩ := h
  all_goals exact ⟨rfl, by simp [BracketDepth.step]⟩

theorem Balanced.foldl_step {free : Char → Bool} (h : Balanced free text) : text.foldl BracketDepth.step depth = depth := by
  induction h generalizing depth with
  | nil => rfl
  | char hbracket _ _ ih => rw [List.foldl_cons, step_of_not_bracket hbracket, ih]
  | group hpair _ _ ihbody ihrest =>
    rw [List.foldl_append, List.foldl_cons, List.foldl_cons, ihbody, (step_pair hpair).1, ihrest]

theorem onlyInside_append {stop : Char} {rest : List Char} (htext : OnlyInside stop front text)
    (hrest : OnlyInside stop (front ++ text) rest) : OnlyInside stop front (text ++ rest) := by
  induction text generalizing front with
  | nil => simpa using hrest
  | cons ch text ih => exact ⟨htext.1, ih htext.2 (by simpa using hrest)⟩

theorem Balanced.onlyInside {stop : Char} {free : Char → Bool} (hstop : ∀ pair ∈ bracketPairs, stop ≠ pair.1 ∧ stop ≠ pair.2)
    (h : Balanced free text) (hfree : free stop = false ∨ ¬NoneOpen front) : OnlyInside stop front text := by
  induction h generalizing front with
  | nil => trivial
  | @char free ch text hbracket hch _ ih =>
    have hfront : (front ++ [ch]).foldl BracketDepth.step {} = front.foldl BracketDepth.step {} := by
      rw [List.foldl_append]
      exact step_of_not_bracket hbracket
    refine ⟨fun heq hnone => ?_, ih ?_⟩
    · obtain hfree | hopen := hfree
      · rw [heq, hfree] at hch
        cases hch
      · exact hopen hnone
    · rwa [noneOpen_iff, hfront, ← noneOpen_iff]
  | @group free opens closes body text hpair hbody htext ihbody ihtext =>
    have hopened : ¬NoneOpen (front ++ [opens]) := by
      rw [noneOpen_iff, List.foldl_append]
      exact (step_pair hpair).2
    have hclosed : (front ++ (opens :: body ++ [closes])).foldl BracketDepth.step {} =
        front.foldl BracketDepth.step {} := by
      rw [List.foldl_append, List.cons_append, List.foldl_cons, List.foldl_append, hbody.foldl_step]
      exact (step_pair hpair).1
    have hinner : OnlyInside stop front (opens :: body ++ [closes]) := by
      refine ⟨fun heq => absurd heq.symm (hstop _ hpair).1, onlyInside_append (ihbody (.inr hopened)) ?_⟩
      exact ⟨fun heq => absurd heq.symm (hstop _ hpair).2, trivial⟩
    have hwhole : opens :: body ++ closes :: text = opens :: body ++ [closes] ++ text := by simp
    rw [hwhole]
    refine onlyInside_append hinner (ihtext ?_)
    rwa [noneOpen_iff, hclosed, ← noneOpen_iff]

theorem delimited_of_balanced (hfront : NoneOpen front)
    (h : ∀ parameter ∈ parameters, Balanced (fun ch => ch ≠ ',' && ch ≠ '=') parameter.declaration ∧
      ∀ argument ∈ parameter.defaultArgument, Balanced (fun ch => ch ≠ ',') argument) :
    Delimited front parameters := by
  induction parameters generalizing front with
  | nil => trivial
  | cons parameter parameters ih =>
    obtain ⟨hdeclaration, hdefault⟩ := h parameter List.mem_cons_self
    have hneither : ∀ stop ∈ [',', '='], ∀ pair ∈ bracketPairs, stop ≠ pair.1 ∧ stop ≠ pair.2 := by decide
    have hdepth : ∀ {text}, (∀ depth : BracketDepth, text.foldl BracketDepth.step depth = depth) →
        NoneOpen (front ++ text) := by
      intro text htext
      rw [noneOpen_iff, List.foldl_append, htext, ← noneOpen_iff]
      exact hfront
    have hwritten : ∀ depth : BracketDepth, parameter.written.foldl BracketDepth.step depth = depth := by
      intro depth
      rw [TemplateParameter.written, List.foldl_append, hdeclaration.foldl_step]
      cases hargument : parameter.defaultArgument with
      | none => rfl
      | some argument => exact (hdefault argument hargument).foldl_step
    refine ⟨⟨hdeclaration.onlyInside (hneither _ (by decide)) (.inl (by decide)), ?_⟩, fun _ _ => hdepth hwritten, ?_⟩
    · cases hargument : parameter.defaultArgument with
      | none => trivial
      | some argument =>
        refine ⟨hdepth fun depth => hdeclaration.foldl_step, ?_⟩
        exact (hdefault argument hargument).onlyInside (hneither _ (by decide)) (.inl (by decide))
    · refine ih ?_ fun other hother => h other (List.mem_cons_of_mem _ hother)
      rw [List.append_assoc]
      exact hdepth fun depth => by rw [List.foldl_append, hwritten]; rfl

end Gentest.Codegen
