import Gentest.Lib.LoopCycles
import Gentest.Scan.HasInclude
import Gentest.Scan.PhysicalLines
import Mathlib.Data.Set.Finite.Basic

/-!
# Where a scan ends

The only loop of a scan that its text does not bound follows the operand of a
`__has_include` through the macros. It comes to an end unless the macros lead the
operand in a circle, and with it ends everything above it.
-/

namespace Gentest.Scan

open Relation (ReflTransGen TransGen)
open WhileLoops (Step Turn ComesBack visited)

-- ---------------------------------------------------------------------------
-- Operands
-- ---------------------------------------------------------------------------

/-- The operand is the name of a macro with the other one as its value. -/
def LeadsTo (macros : MacroTable) (operand operand' : List Char) : Prop :=
  IsScanIdentifier (trimAsciiView operand) ∧
    ∃ value, macros (trimAsciiView operand) = some value ∧ operand' = trimAsciiView value

/-- The macros lead the operand in a circle. -/
def Circular (macros : MacroTable) (operand : List Char) : Prop :=
  ∃ operand', ReflTransGen (LeadsTo macros) operand operand' ∧ TransGen (LeadsTo macros) operand' operand'

def Passage.operand? : Passage → Option (List Char)
  | .verbatim _ => none
  | .operator expr => operandOf expr

def operandsOf (text : List Char) : List (List Char) := (passages (trimAsciiView text)).filterMap Passage.operand?

theorem trimAsciiView_idempotent (text : List Char) : trimAsciiView (trimAsciiView text) = trimAsciiView text :=
  Trimming.trim_trim text

theorem parseScanIdentifier_eq_self {text : List Char} (h : trimAsciiView text = text) :
    parseScanIdentifier text = some text ↔ IsScanIdentifier text := by
  unfold parseScanIdentifier IsScanIdentifier
  rw [h]
  cases text with
  | nil => simp
  | cons ch rest =>
    by_cases hstart : isScanIdentifierStart ch = true
    · simp [hstart, isScanIdentifierContinue_of_start hstart]
    · simp [hstart]

theorem turn_iff {macros : MacroTable} {operand operand' : List Char} :
    Turn (resolveTurn macros) operand operand' ↔ LeadsTo macros operand operand' := by
  have hself := parseScanIdentifier_eq_self (trimAsciiView_idempotent operand)
  constructor
  · intro h
    unfold Turn resolveTurn at h
    dsimp only at h
    split at h
    · cases h
    · split at h
      · cases h
      · split at h
        · cases h
        · rename_i ident hident
          split at h
          · rename_i heq
            subst heq
            split at h
            · rename_i value hvalue
              exact ⟨hself.mp hident, value, hvalue, (Step.next.inj h).symm⟩
            · cases h
          · cases h
  · rintro ⟨hident, value, hvalue, rfl⟩
    obtain ⟨ch, rest, hcons, hstart, -⟩ := hident.exists_cons
    have hhead : ∀ quote, isScanIdentifierStart quote = false → (trimAsciiView operand).head? ≠ some quote := by
      intro quote hquote hhead
      rw [hcons] at hhead
      rw [Option.some.inj hhead, hquote] at hstart
      cases hstart
    unfold Turn resolveTurn
    dsimp only
    rw [if_neg fun h => hhead '"' rfl h.2.1, if_neg fun h => hhead '<' rfl h.2.1, hself.mpr hident]
    simp only [if_true, hvalue]

theorem comesBack_iff (macros : MacroTable) (operand : List Char) :
    ComesBack (resolveTurn macros) operand ↔ Circular macros operand := by
  have hturn : Turn (resolveTurn macros) = LeadsTo macros := by
    funext x y
    exact propext turn_iff
  unfold ComesBack Circular visited
  rw [hturn]
  rfl

theorem visited_finite {macros : MacroTable} (hfinite : {ident | (macros ident).isSome = true}.Finite) (operand : List Char) :
    (visited (resolveTurn macros) operand).Finite := by
  refine (Set.Finite.insert operand (hfinite.image fun ident => trimAsciiView ((macros ident).getD []))).subset ?_
  intro operand' hreach
  obtain rfl | ⟨before, -, hlast⟩ := ReflTransGen.cases_tail hreach
  · exact Set.mem_insert _ _
  · obtain ⟨-, value, hvalue, rfl⟩ := turn_iff.mp hlast
    refine Set.mem_insert_of_mem _ ⟨trimAsciiView before, ?_, ?_⟩
    · exact Set.mem_ofPred.mpr (by rw [hvalue]; rfl)
    · dsimp only
      rw [hvalue]
      rfl

theorem resolveOperand_ends_iff {macros : MacroTable} (hfinite : {ident | (macros ident).isSome = true}.Finite)
    (operand : List Char) : (∃ turns, (resolveOperand macros turns operand).isSome = true) ↔ ¬Circular macros operand := by
  rw [← comesBack_iff, ← WhileLoops.exists_ends_iff (visited_finite hfinite operand)]
  exact WhileLoops.exists_run_iff

-- ---------------------------------------------------------------------------
-- Conditions
-- ---------------------------------------------------------------------------

variable (files : IncludeFiles)

theorem rewrite_mono {macros : MacroTable} {turns turns' : Nat} (hle : turns ≤ turns') (passage : Passage)
    (out : List Char) (h : passage.rewrite files macros turns = some out) :
    passage.rewrite files macros turns' = some out := by
  cases passage with
  | verbatim text => exact h
  | operator expr =>
    simp only [Passage.rewrite, scanHasIncludeLiteral] at h ⊢
    cases hoperand : operandOf expr with
    | none =>
      rw [hoperand] at h
      exact h
    | some operand =>
      rw [hoperand] at h
      obtain ⟨answer, hanswer, hout⟩ := Option.map_eq_some_iff.mp h
      obtain ⟨resolved, hresolved, hfound⟩ := Option.map_eq_some_iff.mp hanswer
      have hmore : resolveOperand macros turns' operand = some resolved := WhileLoops.run_mono hle hresolved
      dsimp only
      rw [hmore, Option.map_some, Option.map_some, hfound, hout]

theorem evaluate_mono {macros : MacroTable} {turns turns' : Nat} (hle : turns ≤ turns') {text : List Char}
    {answer : Except LongLong.Fault Bool}
    (h : evaluateSimplePreprocessorCondition files macros turns text = some answer) :
    evaluateSimplePreprocessorCondition files macros turns' text = some answer := by
  unfold evaluateSimplePreprocessorCondition rewriteScanHasIncludeOperators at h ⊢
  dsimp only at h ⊢
  split at h
  · rename_i hempty
    rw [if_pos hempty]
    exact h
  · rename_i hsome
    rw [if_neg hsome]
    obtain ⟨rewritten, hrewritten, hanswer⟩ := Option.map_eq_some_iff.mp h
    obtain ⟨outs, houts, hflatten⟩ := Option.map_eq_some_iff.mp hrewritten
    rw [Fallible.mapM_some_mono (rewrite_mono files hle) houts, Option.map_some, Option.map_some, hflatten, hanswer]

theorem isSome_rewrite {macros : MacroTable} {turns : Nat} {passage : Passage} :
    (passage.rewrite files macros turns).isSome = true ↔
      ∀ operand, passage.operand? = some operand → (resolveOperand macros turns operand).isSome = true := by
  cases passage with
  | verbatim text => exact ⟨fun _ _ h => (by cases h), fun _ => rfl⟩
  | operator expr =>
    simp only [Passage.rewrite, scanHasIncludeLiteral, Passage.operand?]
    cases operandOf expr with
    | none => exact ⟨fun _ _ h => (by cases h), fun _ => rfl⟩
    | some operand =>
      rw [Option.isSome_map, Option.isSome_map]
      exact ⟨fun h _ heq => Option.some.inj heq ▸ h, fun h => h operand rfl⟩

theorem isSome_evaluate {macros : MacroTable} {turns : Nat} {text : List Char} :
    (evaluateSimplePreprocessorCondition files macros turns text).isSome = true ↔
      ∀ operand ∈ operandsOf text, (resolveOperand macros turns operand).isSome = true := by
  have hrewrite : (rewriteScanHasIncludeOperators files macros turns (trimAsciiView text)).isSome = true ↔
      ∀ operand ∈ operandsOf text, (resolveOperand macros turns operand).isSome = true := by
    rw [rewriteScanHasIncludeOperators, Option.isSome_map, Fallible.isSome_mapM]
    simp only [isSome_rewrite, operandsOf, List.mem_filterMap]
    exact ⟨fun h operand ⟨passage, hmem, heq⟩ => h passage hmem operand heq,
      fun h passage hmem operand heq => h operand ⟨passage, hmem, heq⟩⟩
  unfold evaluateSimplePreprocessorCondition
  dsimp only
  split
  · rename_i hempty
    unfold operandsOf
    rw [List.isEmpty_iff.mp hempty]
    exact ⟨fun _ _ h => (nomatch h), fun _ => rfl⟩
  · rw [Option.isSome_map]
    exact hrewrite

theorem exists_turns {macros : MacroTable} (operands : List (List Char)) :
    (∃ turns, ∀ operand ∈ operands, (resolveOperand macros turns operand).isSome = true) ↔
      ∀ operand ∈ operands, ∃ turns, (resolveOperand macros turns operand).isSome = true := by
  refine ⟨fun ⟨turns, h⟩ operand hmem => ⟨turns, h operand hmem⟩, fun h => ?_⟩
  have hmono : ∀ {turns turns' operand}, turns ≤ turns' → (resolveOperand macros turns operand).isSome = true →
      (resolveOperand macros turns' operand).isSome = true := by
    intro turns turns' operand hle hsome
    obtain ⟨resolved, hresolved⟩ := Option.isSome_iff_exists.mp hsome
    exact Option.isSome_iff_exists.mpr ⟨resolved, WhileLoops.run_mono hle hresolved⟩
  induction operands with
  | nil => exact ⟨0, nofun⟩
  | cons operand operands ih =>
    obtain ⟨turns, hturns⟩ := h operand List.mem_cons_self
    obtain ⟨more, hmore⟩ := ih fun operand hmem => h operand (List.mem_cons_of_mem _ hmem)
    refine ⟨max turns more, List.forall_mem_cons.mpr ⟨hmono (Nat.le_max_left _ _) hturns, fun operand hmem => ?_⟩⟩
    exact hmono (Nat.le_max_right _ _) (hmore operand hmem)

theorem evaluate_ends_iff {macros : MacroTable} (hfinite : {ident | (macros ident).isSome = true}.Finite) (text : List Char) :
    (∃ turns, (evaluateSimplePreprocessorCondition files macros turns text).isSome = true) ↔
      ∀ operand ∈ operandsOf text, ¬Circular macros operand := by
  simp only [isSome_evaluate, exists_turns, resolveOperand_ends_iff hfinite]

-- ---------------------------------------------------------------------------
-- Lines
-- ---------------------------------------------------------------------------

/-- The evaluator with a number of turns. What is undefined is read as unknown. -/
def evaluateWithin (turns : Nat) (macros : MacroTable) (condition : List Char) : Option (Option Bool) :=
  (evaluateSimplePreprocessorCondition files macros turns condition).map Except.toOption

def scanLines (turns : Nat) (s : ScanStreamState) (lines : List (List Char)) :
    Option (List ProcessedScanLine × ScanStreamState) :=
  processLines (evaluateWithin files turns) lines s

def ScanStreamState.evaluatedCondition (s : ScanStreamState) (rawLine : List Char) : Option (List Char) :=
  (s.completed rawLine).bind fun (logicalLine, s) => s.conditionOf logicalLine

/-- No operand in the condition that the line has evaluated is led in a circle. -/
def Straight (s : ScanStreamState) (rawLine : List Char) : Prop :=
  ∀ condition, s.evaluatedCondition rawLine = some condition →
    ∀ operand ∈ operandsOf condition, ¬Circular s.objectLikeMacros operand

-- ---------------------------------------------------------------------------
-- Finite tables
-- ---------------------------------------------------------------------------

def MacroTable.IsFinite (macros : MacroTable) : Prop := {ident | (macros ident).isSome = true}.Finite

theorem MacroTable.IsFinite.define {macros : MacroTable} (h : macros.IsFinite) (name value : List Char) :
    (macros.define name value).IsFinite := by
  refine (Set.Finite.insert name h).subset fun ident hident => ?_
  by_cases heq : ident = name
  · exact Set.mem_insert_iff.mpr (.inl heq)
  · exact Set.mem_insert_iff.mpr (.inr (by rwa [Set.mem_ofPred, MacroTable.define_other heq] at hident))

theorem MacroTable.IsFinite.undefine {macros : MacroTable} (h : macros.IsFinite) (name : List Char) :
    (macros.undefine name).IsFinite := by
  refine h.subset fun ident hident => ?_
  by_cases heq : ident = name
  · subst heq
    simp [MacroTable.undefine] at hident
  · rwa [Set.mem_ofPred, MacroTable.undefine_other heq] at hident

theorem handleDefine_isFinite {s : ScanStreamState} (h : s.objectLikeMacros.IsFinite) (rest : List Char) :
    (handleDefine s rest).objectLikeMacros.IsFinite := by
  unfold handleDefine
  split
  · exact h
  · dsimp only
    split
    · exact h
    · exact h.define _ _

theorem handleUndef_isFinite {s : ScanStreamState} (h : s.objectLikeMacros.IsFinite) (rest : List Char) :
    (handleUndef s rest).objectLikeMacros.IsFinite := by
  unfold handleUndef
  split
  · exact h
  · exact h.undefine _

theorem handle_isFinite {s : ScanStreamState} (h : s.objectLikeMacros.IsFinite) (rawLine : List Char)
    (evaluated : Option Bool) (lineNumber : Nat) :
    (handlePreprocessorLogicalLine rawLine evaluated lineNumber s).objectLikeMacros.IsFinite := by
  have hother := @handle_macros s ⟨rawLine, evaluated, lineNumber⟩
  unfold ScanStreamState.handle ScanLine.keyword at hother
  by_cases hactive : s.currentBranchActive = true
  · cases hdirective : directiveOf rawLine with
    | none =>
      unfold handlePreprocessorLogicalLine
      rwa [hdirective]
    | some directive =>
      obtain ⟨keyword, rest⟩ := directive
      cases keyword with
      | define =>
        simp only [handlePreprocessorLogicalLine, hdirective, if_pos hactive]
        exact handleDefine_isFinite h rest
      | undef =>
        simp only [handlePreprocessorLogicalLine, hdirective, if_pos hactive]
        exact handleUndef_isFinite h rest
      | _ =>
        rw [hother (.inr (by rw [hdirective]; simp))]
        exact h
  · rw [hother (.inl (Bool.eq_false_iff.mpr hactive))]
    exact h

theorem populate_isFinite (args : List (List Char)) :
    (populateScanMacrosFromCommandLine {} args).objectLikeMacros.IsFinite := by
  have hdefine : ∀ (macros : MacroTable) definition, macros.IsFinite → (defineMacro macros definition).IsFinite := by
    intro macros definition h
    unfold defineMacro
    dsimp only
    split
    · exact h
    · split
      · exact h
      · exact h.define _ _
  have hundefine : ∀ (macros : MacroTable) definition, macros.IsFinite → (undefineMacro macros definition).IsFinite := by
    intro macros definition h
    unfold undefineMacro
    split
    · exact h
    · split
      · exact h.undefine _
      · exact h
  have hargument : ∀ (state : MacroTable × Consume) arg, state.1.IsFinite → (populateArgument state arg).1.IsFinite := by
    intro state arg h
    unfold populateArgument
    split
    · exact hdefine _ _ h
    · exact hundefine _ _ h
    · split
      · exact h
      · split
        · exact h
        · split
          · exact hdefine _ _ h
          · split
            · exact hundefine _ _ h
            · exact h
  have hfold : ∀ (args : List (List Char)) (state : MacroTable × Consume), state.1.IsFinite →
      (args.foldl populateArgument state).1.IsFinite := by
    intro args
    induction args with
    | nil => exact fun _ h => h
    | cons arg args ih => exact fun state h => ih _ (hargument state arg h)
  refine hfold args _ ?_
  exact Set.finite_empty.subset fun _ h => (nomatch h)

-- ---------------------------------------------------------------------------
-- Scans
-- ---------------------------------------------------------------------------

section

variable {evaluate evaluate' : MacroTable → List Char → Option (Option Bool)} {s s' : ScanStreamState}
  {rawLine : List Char} {processed : ProcessedScanLine}

theorem appendPending_macros (s : ScanStreamState) (trimmed : List Char) :
    (s.appendPending trimmed).objectLikeMacros = s.objectLikeMacros := by
  unfold ScanStreamState.appendPending
  split <;> rfl

theorem processScanPhysicalLine_cases (rawLine : List Char) (s : ScanStreamState) :
    (s.completed rawLine = none ∧ ∃ processed s', s'.objectLikeMacros = s.objectLikeMacros ∧
      ∀ evaluate, processScanPhysicalLine evaluate rawLine s = some (processed, s')) ∨
    ∃ logicalLine t, s.completed rawLine = some (logicalLine, t) ∧ t.objectLikeMacros = s.objectLikeMacros ∧
      ∀ evaluate, processScanPhysicalLine evaluate rawLine s =
        ((t.handleLogicalLine evaluate logicalLine t.pendingPreprocessorStartLine).map fun t =>
          ({ isPreprocessor := true }, { t with pendingPreprocessor := [], pendingPreprocessorStartLine := 0 })) := by
  unfold processScanPhysicalLine ScanStreamState.completed
  dsimp only
  split
  · have hmacros := appendPending_macros (s.readLine rawLine).1 (s.readLine rawLine).2
    unfold ScanStreamState.processDirective
    dsimp only
    by_cases hcontinued : hasTrailingLineContinuation (s.readLine rawLine).2 = true
    · rw [if_pos (by rw [hcontinued]; rfl)]
      simp only [if_pos hcontinued]
      refine .inl ⟨trivial, _, _, ?_, fun _ => rfl⟩
      exact hmacros
    · simp only [if_neg hcontinued]
      by_cases hempty : ((s.readLine rawLine).1.appendPending (s.readLine rawLine).2).pendingPreprocessor.isEmpty = true
      · rw [if_pos (by rw [hempty, Bool.or_true])]
        simp only [if_pos hempty]
        refine .inl ⟨trivial, _, _, ?_, fun _ => rfl⟩
        exact hmacros
      · rw [if_neg (by rw [Bool.or_eq_true]; exact fun h => h.elim hcontinued hempty)]
        simp only [if_neg hempty]
        refine .inr ⟨_, _, rfl, hmacros, fun evaluate => ?_⟩
        rw [Option.map_map]
        rfl
  · left
    split
    · exact ⟨rfl, {}, (s.readLine rawLine).1, rfl, fun _ => rfl⟩
    · exact ⟨rfl, _, (s.readLine rawLine).1, rfl, fun _ => rfl⟩

theorem isSome_process :
    (processScanPhysicalLine evaluate rawLine s).isSome = true ↔
      ∀ condition, s.evaluatedCondition rawLine = some condition →
        (evaluate s.objectLikeMacros condition).isSome = true := by
  unfold ScanStreamState.evaluatedCondition
  obtain ⟨hnone, processed, s', -, hprocess⟩ | ⟨logicalLine, t, hcompleted, hmacros, hprocess⟩ :=
    processScanPhysicalLine_cases rawLine s
  · rw [hprocess, hnone]
    exact ⟨fun _ _ h => (nomatch h), fun _ => rfl⟩
  · rw [hprocess, hcompleted, Option.isSome_map, ScanStreamState.handleLogicalLine, ← hmacros, Option.bind_some]
    dsimp only
    cases t.conditionOf logicalLine with
    | none => exact ⟨fun _ _ h => (nomatch h), fun _ => rfl⟩
    | some condition =>
      rw [Option.isSome_map]
      exact ⟨fun h _ heq => Option.some.inj heq ▸ h, fun h => h condition rfl⟩

theorem process_mono (hmore : ∀ macros condition answer, evaluate macros condition = some answer →
    evaluate' macros condition = some answer) (h : processScanPhysicalLine evaluate rawLine s = some (processed, s')) :
    processScanPhysicalLine evaluate' rawLine s = some (processed, s') := by
  obtain ⟨-, processed', t, -, hprocess⟩ | ⟨logicalLine, t, -, -, hprocess⟩ := processScanPhysicalLine_cases rawLine s
  · rwa [hprocess evaluate, ← hprocess evaluate'] at h
  · rw [hprocess] at h ⊢
    obtain ⟨t', hhandle, hresult⟩ := Option.map_eq_some_iff.mp h
    unfold ScanStreamState.handleLogicalLine at hhandle ⊢
    cases hcondition : t.conditionOf logicalLine with
    | none =>
      rw [hcondition] at hhandle
      exact Option.map_eq_some_iff.mpr ⟨t', hhandle, hresult⟩
    | some condition =>
      rw [hcondition] at hhandle
      obtain ⟨answer, hanswer, heq⟩ := Option.map_eq_some_iff.mp hhandle
      dsimp only
      rw [hmore _ _ _ hanswer, Option.map_some, heq, Option.map_some, hresult]

theorem process_isFinite (hfinite : s.objectLikeMacros.IsFinite)
    (h : processScanPhysicalLine evaluate rawLine s = some (processed, s')) : s'.objectLikeMacros.IsFinite := by
  obtain ⟨-, processed', t, hmacros, hprocess⟩ | ⟨logicalLine, t, -, hmacros, hprocess⟩ :=
    processScanPhysicalLine_cases rawLine s
  · rw [hprocess] at h
    obtain ⟨-, rfl⟩ := Prod.mk.inj (Option.some.inj h)
    exact hmacros ▸ hfinite
  · rw [hprocess] at h
    obtain ⟨t', hhandle, hresult⟩ := Option.map_eq_some_iff.mp h
    obtain ⟨-, rfl⟩ := Prod.mk.inj hresult
    have hbefore : t.objectLikeMacros.IsFinite := hmacros ▸ hfinite
    unfold ScanStreamState.handleLogicalLine at hhandle
    split at hhandle
    · obtain rfl := Option.some.inj hhandle
      exact handle_isFinite hbefore _ _ _
    · obtain ⟨answer, -, rfl⟩ := Option.map_eq_some_iff.mp hhandle
      exact handle_isFinite hbefore _ _ _

theorem processLines_mono (hmore : ∀ macros condition answer, evaluate macros condition = some answer →
    evaluate' macros condition = some answer) (lines : List (List Char)) :
    ∀ (s : ScanStreamState) result, processLines evaluate lines s = some result →
      processLines evaluate' lines s = some result := by
  induction lines with
  | nil => exact fun _ _ h => h
  | cons line lines ih =>
    intro s result h
    unfold processLines at h ⊢
    obtain ⟨⟨processed, next⟩, hline, hmap⟩ := Option.bind_eq_some_iff.mp h
    obtain ⟨rest, hrest, hresult⟩ := Option.map_eq_some_iff.mp hmap
    rw [process_mono hmore hline, Option.bind_some]
    exact Option.map_eq_some_iff.mpr ⟨rest, ih next rest hrest, hresult⟩

theorem processLines_append (evaluate : MacroTable → List Char → Option (Option Bool)) (front behind : List (List Char)) :
    ∀ s, processLines evaluate (front ++ behind) s =
      (processLines evaluate front s).bind fun (processed, s') =>
        (processLines evaluate behind s').map fun (others, s'') => (processed ++ others, s'') := by
  induction front with
  | nil =>
    intro s
    change processLines evaluate behind s = (processLines evaluate behind s).map id
    exact (congrFun Option.map_id _).symm
  | cons line front ih =>
    intro s
    rw [List.cons_append, processLines, processLines]
    cases processScanPhysicalLine evaluate line s with
    | none => rfl
    | some result =>
      obtain ⟨processed, next⟩ := result
      simp only [Option.bind_some, ih next]
      cases processLines evaluate front next with
      | none => rfl
      | some others =>
        simp only [Option.bind_some, Option.map_some, Option.map_map]
        rfl

end

theorem evaluateWithin_mono {turns turns' : Nat} (hle : turns ≤ turns') (macros : MacroTable) (condition : List Char)
    (answer : Option Bool) (h : evaluateWithin files turns macros condition = some answer) :
    evaluateWithin files turns' macros condition = some answer := by
  obtain ⟨value, hvalue, hanswer⟩ := Option.map_eq_some_iff.mp h
  rw [evaluateWithin, evaluate_mono files hle hvalue, Option.map_some, hanswer]

theorem scanLines_mono {turns turns' : Nat} (hle : turns ≤ turns') {s : ScanStreamState} {lines : List (List Char)}
    {result : List ProcessedScanLine × ScanStreamState} (h : scanLines files turns s lines = some result) :
    scanLines files turns' s lines = some result :=
  processLines_mono (evaluateWithin_mono files hle) lines s result h

theorem scanLines_isFinite {turns : Nat} (lines : List (List Char)) :
    ∀ {s : ScanStreamState} {result}, s.objectLikeMacros.IsFinite → scanLines files turns s lines = some result →
      result.2.objectLikeMacros.IsFinite := by
  induction lines with
  | nil =>
    intro s result hfinite h
    obtain rfl := Option.some.inj h
    exact hfinite
  | cons line lines ih =>
    intro s result hfinite h
    obtain ⟨⟨processed, next⟩, hline, hmap⟩ := Option.bind_eq_some_iff.mp h
    obtain ⟨rest, hrest, rfl⟩ := Option.map_eq_some_iff.mp hmap
    exact @ih next rest (process_isFinite hfinite hline) hrest

/-- A line is processed, in some number of turns, exactly when no operand of the
condition it has evaluated is led in a circle. -/
theorem line_ends_iff {s : ScanStreamState} (hfinite : s.objectLikeMacros.IsFinite) (rawLine : List Char) :
    (∃ turns, (processScanPhysicalLine (evaluateWithin files turns) rawLine s).isSome = true) ↔ Straight s rawLine := by
  simp only [isSome_process, evaluateWithin, Option.isSome_map, Straight]
  cases s.evaluatedCondition rawLine with
  | none => exact ⟨fun _ _ h => (nomatch h), fun _ => ⟨0, fun _ h => (nomatch h)⟩⟩
  | some condition =>
    have hends := evaluate_ends_iff files hfinite condition
    constructor
    · rintro ⟨turns, h⟩ _ ⟨⟩
      exact hends.mp ⟨turns, h condition rfl⟩
    · intro h
      obtain ⟨turns, hturns⟩ := hends.mpr (h condition rfl)
      exact ⟨turns, fun _ heq => Option.some.inj heq ▸ hturns⟩

/-- The scan of some lines gets to a state. -/
def Reaches (s : ScanStreamState) (lines : List (List Char)) (s' : ScanStreamState) : Prop :=
  ∃ turns processed, scanLines files turns s lines = some (processed, s')

/-- A scan ends exactly when every line is straight in the state the lines before it
lead to. -/
theorem scanLines_ends_iff (lines : List (List Char)) :
    ∀ {s : ScanStreamState}, s.objectLikeMacros.IsFinite →
      ((∃ turns, (scanLines files turns s lines).isSome = true) ↔
        ∀ front line behind, lines = front ++ line :: behind → ∀ s', Reaches files s front s' → Straight s' line) := by
  induction lines with
  | nil =>
    intro s _
    exact ⟨fun _ front line behind h => absurd h (by simp), fun _ => ⟨0, rfl⟩⟩
  | cons line lines ih =>
    intro s hfinite
    constructor
    · rintro ⟨turns, hsome⟩ front line' behind hsplit s' ⟨turns', processed, hreach⟩
      -- with enough turns for both the scan goes through the state
      obtain ⟨result, hresult⟩ := Option.isSome_iff_exists.mp hsome
      have hall := scanLines_mono files (Nat.le_max_left turns turns') hresult
      have hfront := scanLines_mono files (Nat.le_max_right turns turns') hreach
      rw [hsplit] at hall
      obtain ⟨⟨_, t⟩, hbefore, hmap⟩ := Option.bind_eq_some_iff.mp ((processLines_append _ front _ s).symm.trans hall)
      obtain ⟨-, rfl⟩ := Prod.mk.inj (Option.some.inj (hbefore.symm.trans hfront))
      obtain ⟨rest, hrest, -⟩ := Option.map_eq_some_iff.mp hmap
      obtain ⟨_, hline, -⟩ := Option.bind_eq_some_iff.mp hrest
      exact (line_ends_iff files (scanLines_isFinite files front hfinite hfront) line').mp
        ⟨max turns turns', Option.isSome_iff_exists.mpr ⟨_, hline⟩⟩
    · intro hstraight
      obtain ⟨turns, hline⟩ := (line_ends_iff files hfinite line).mpr (hstraight [] line lines rfl s ⟨0, [], rfl⟩)
      obtain ⟨⟨processed, next⟩, hnext⟩ := Option.isSome_iff_exists.mp hline
      have hrest := (ih (process_isFinite hfinite hnext)).mpr fun front line' behind hsplit s' hreach => by
        obtain ⟨turns', others, hothers⟩ := hreach
        refine hstraight (line :: front) line' behind (by rw [hsplit]; rfl) s' ⟨max turns turns', processed :: others, ?_⟩
        have hmono := process_mono (evaluateWithin_mono files (Nat.le_max_left turns turns')) hnext
        have hmore := scanLines_mono files (Nat.le_max_right turns turns') hothers
        unfold scanLines processLines
        rw [hmono, Option.bind_some]
        exact Option.map_eq_some_iff.mpr ⟨_, hmore, rfl⟩
      obtain ⟨turns', hsome⟩ := hrest
      obtain ⟨result, hresult⟩ := Option.isSome_iff_exists.mp hsome
      have hmono := process_mono (evaluateWithin_mono files (Nat.le_max_left turns turns')) hnext
      have hmore := scanLines_mono files (Nat.le_max_right turns turns') hresult
      refine ⟨max turns turns', ?_⟩
      unfold scanLines processLines
      rw [hmono, Option.bind_some, Option.isSome_map]
      exact Option.isSome_iff_exists.mpr ⟨_, hmore⟩

/-- On every command line and in every state a scan gets to, an operand is resolved and a
condition evaluated exactly when nothing is led in a circle, and a file is scanned
exactly when no condition evaluated on the way has such an operand. -/
theorem scan_terminates_iff (args lines : List (List Char)) :
    (∀ s, Reaches files (populateScanMacrosFromCommandLine {} args) lines s →
      (∀ operand, (∃ turns, (resolveOperand s.objectLikeMacros turns operand).isSome = true) ↔
        ¬Circular s.objectLikeMacros operand) ∧
      (∀ text, (∃ turns, (evaluateSimplePreprocessorCondition files s.objectLikeMacros turns text).isSome = true) ↔
        ∀ operand ∈ operandsOf text, ¬Circular s.objectLikeMacros operand) ∧
      ∀ line, (∃ turns, (processScanPhysicalLine (evaluateWithin files turns) line s).isSome = true) ↔ Straight s line) ∧
    ((∃ turns, (scanLines files turns (populateScanMacrosFromCommandLine {} args) lines).isSome = true) ↔
      ∀ front line behind, lines = front ++ line :: behind →
        ∀ s, Reaches files (populateScanMacrosFromCommandLine {} args) front s → Straight s line) := by
  refine ⟨fun s ⟨turns, processed, hreach⟩ => ?_, scanLines_ends_iff files lines (populate_isFinite args)⟩
  have hfinite : s.objectLikeMacros.IsFinite := scanLines_isFinite files lines (populate_isFinite args) hreach
  exact ⟨resolveOperand_ends_iff hfinite, evaluate_ends_iff files hfinite, line_ends_iff files hfinite⟩

def circularDefinitions : List (List Char) := ["#define AA BB".toList, "#define BB AA".toList]

def circularState : ScanStreamState :=
  { objectLikeMacros := (MacroTable.define (fun _ => none) ['A', 'A'] ['B', 'B']).define ['B', 'B'] ['A', 'A'], currentLine := 2 }

/-- Two macros that name each other, and an `__has_include` of one of them. -/
theorem circular_hangs :
    ¬∃ turns, (scanLines noFiles turns (populateScanMacrosFromCommandLine {} [])
      (circularDefinitions ++ ["#if __has_include(AA)".toList])).isSome = true := by
  rintro ⟨turns, hsome⟩
  have hstate : (scanLines noFiles 0 {} circularDefinitions).map Prod.snd = some circularState := rfl
  obtain ⟨⟨processed, _⟩, hscan, rfl⟩ := Option.map_eq_some_iff.mp hstate
  have hcircular : Circular circularState.objectLikeMacros ['A', 'A'] := by
    have hforth : LeadsTo circularState.objectLikeMacros ['A', 'A'] ['B', 'B'] := ⟨⟨rfl, rfl⟩, ['B', 'B'], rfl, rfl⟩
    have hback : LeadsTo circularState.objectLikeMacros ['B', 'B'] ['A', 'A'] := ⟨⟨rfl, rfl⟩, ['A', 'A'], rfl, rfl⟩
    exact ⟨['A', 'A'], .refl, .tail (.single hforth) hback⟩
  have hstraight := (scanLines_ends_iff noFiles _ (populate_isFinite [])).mp ⟨turns, hsome⟩ circularDefinitions _ [] rfl
    circularState ⟨0, processed, hscan⟩
  exact hstraight "__has_include(AA)".toList rfl ['A', 'A'] (by decide +kernel) hcircular

end Gentest.Scan
