import Gentest.Scan.DirectiveSpace

/-!
# Names of modules

The active lines of a file are split into statements, and the statements of a module
declaration are joined until one ends. The amount of white space between tokens does not
matter to the name.
-/

namespace Gentest.Scan

open Gentest.Codegen (isSpace)

-- ---------------------------------------------------------------------------
-- Statements
-- ---------------------------------------------------------------------------

def statementOf (current : List Char) : List (List Char) :=
  let trimmed := trimAsciiView current
  if trimmed.isEmpty then [] else [trimmed]

def splitScanStatementsFrom : List Char → List Char → List (List Char)
  | current, [] => statementOf current
  | current, ch :: line =>
    if ch = ';' then statementOf (current ++ [ch]) ++ splitScanStatementsFrom [] line
    else splitScanStatementsFrom (current ++ [ch]) line

def splitScanStatements (line : List Char) : List (List Char) := splitScanStatementsFrom [] line

-- ---------------------------------------------------------------------------
-- Module declarations
-- ---------------------------------------------------------------------------

def isValidScanModulePart (part : List Char) : Bool :=
  part.head?.any isScanIdentifierStart && part.tail.all isScanIdentifierContinue

def isValidScanModuleComponent (text : List Char) : Bool :=
  let text := trimAsciiView text
  let parts := text.splitOn '.'
  !text.isEmpty && (if parts.getLast? = some [] then parts.dropLast else parts).all isValidScanModulePart

def canonicalizeScanModuleName (text : List Char) (allowPartitionOnly : Bool) : Option (List Char) :=
  let text := trimAsciiView text
  if text.isEmpty then none
  else
    match text.splitOn ':' with
    | [text] => if isValidScanModuleComponent text then some text else none
    | [primary, partition_] =>
      let primary := trimAsciiView primary
      let partition_ := trimAsciiView partition_
      if partition_.isEmpty || !isValidScanModuleComponent partition_ then none
      else if primary.isEmpty then if allowPartitionOnly then some (':' :: partition_) else none
      else if isValidScanModuleComponent primary then some (primary ++ ':' :: partition_)
      else none
    | _ => none

/-- Whether the keyword stands in front, and where the cursor is then. -/
def consumeScanKeyword (cursor keyword : List Char) : Bool × List Char :=
  let cursor := cursor.dropWhile [' ', '\t', '\r', '\n'].contains
  let behind := cursor.drop keyword.length
  if cursor.isEmpty then (false, [])
  else if keyword <+: cursor ∧ behind.head?.all fun next => isSpace next || [';', '<', '"', ':'].contains next then
    (true, behind)
  else (false, cursor)

def isGlobalModuleFragmentScanLine (line : List Char) : Bool := normalizeScanDirectiveLine line == "module;".toList

def looksLikeNamedModuleScanPrefix (line : List Char) : Bool :=
  let (exported, cursor) := consumeScanKeyword (normalizeScanDirectiveLine line) "export".toList
  let cursor := if exported then ltrimAsciiView cursor else cursor
  exported && cursor.isEmpty || cursor == "module".toList || (consumeScanKeyword cursor "module".toList).1

def parseNamedModuleNameFromScanLine (line : List Char) : Option (List Char) :=
  let (exported, cursor) := consumeScanKeyword (normalizeScanDirectiveLine line) "export".toList
  let cursor := if exported then ltrimAsciiView cursor else cursor
  let (isModule, cursor) := consumeScanKeyword cursor "module".toList
  let cursor := ltrimAsciiView cursor
  if !isModule || cursor.isEmpty || cursor.head? = some ';' || !cursor.contains ';' then none
  else canonicalizeScanModuleName (cursor.takeWhile (· ≠ ';')) false

-- ---------------------------------------------------------------------------
-- The name of a file's module
-- ---------------------------------------------------------------------------

/-- The declaration that is read, and the name once it is found. -/
structure ModuleScan where
  pending : Option (List Char) := none
  moduleName : Option (List Char) := none
  deriving DecidableEq, Repr

def ModuleScan.extend (pending statement : List Char) : ModuleScan :=
  if statement.contains ';' then { moduleName := parseNamedModuleNameFromScanLine pending }
  else if !looksLikeNamedModuleScanPrefix pending && !isGlobalModuleFragmentScanLine pending then {}
  else { pending := some pending }

def ModuleScan.step (m : ModuleScan) (statement : List Char) : ModuleScan :=
  if m.moduleName.isSome then m
  else
    match m.pending with
    | none =>
      if !looksLikeNamedModuleScanPrefix statement && !isGlobalModuleFragmentScanLine statement then m
      else ModuleScan.extend statement statement
    | some pending => ModuleScan.extend (pending ++ ' ' :: statement) statement

/-- The name that `named_module_name_from_source_file` finds in the active lines. -/
def namedModuleName (lines : List (List Char)) : Option (List Char) :=
  ((lines.flatMap splitScanStatements).foldl ModuleScan.step {}).moduleName

def Delivered.code? : Delivered → Option (List Char)
  | .code line => some line
  | .directive _ => none

-- ---------------------------------------------------------------------------
-- White space
-- ---------------------------------------------------------------------------

variable {a b x y : List Char}

/-- The statements of a line behind what is read of the first one. -/
def squeezedStatements : List Char × Bool → List Char → List (List Char)
  | st, [] => if st.1 = [] then [] else [st.1]
  | st, ch :: line =>
    let st := Squeezing.step isSpace ' ' st ch
    if ch = ';' then st.1 :: squeezedStatements ([], false) line else squeezedStatements st line

theorem normalize_statementOf (current : List Char) :
    (statementOf current).map normalizeScanDirectiveLine =
      if normalizeScanDirectiveLine current = [] then [] else [normalizeScanDirectiveLine current] := by
  unfold statementOf
  dsimp only
  rw [← normalize_trim current]
  cases htrim : trimAsciiView current with
  | nil => rfl
  | cons ch rest =>
    have hne : normalizeScanDirectiveLine (ch :: rest) ≠ [] := by
      rw [← htrim, normalize_trim, normalize_of_trim_cons htrim]
      exact List.cons_ne_nil _ _
    rw [if_neg hne]
    rfl

theorem normalize_splitScanStatementsFrom (current line : List Char) :
    (splitScanStatementsFrom current line).map normalizeScanDirectiveLine =
      squeezedStatements (Squeezing.run isSpace ' ' ([], false) current) line := by
  have hstep : ∀ current ch, Squeezing.run isSpace ' ' ([], false) (current ++ [ch]) =
      Squeezing.step isSpace ' ' (Squeezing.run isSpace ' ' ([], false) current) ch :=
    fun _ _ => Squeezing.run_append _ _
  induction line generalizing current with
  | nil => exact normalize_statementOf current
  | cons ch line ih =>
    rw [splitScanStatementsFrom, squeezedStatements]
    split
    · rename_i hsemicolon
      have hne : normalizeScanDirectiveLine (current ++ [ch]) ≠ [] := by
        intro hnil
        have hspace := Squeezing.squeeze_eq_nil_iff.mp hnil ch (by simp)
        rw [hsemicolon] at hspace
        cases hspace
      rw [List.map_append, normalize_statementOf, if_neg hne, ih []]
      exact congrArg (· :: squeezedStatements ([], false) line) (congrArg Prod.fst (hstep current ch))
    · rw [ih, hstep]

theorem squeezedStatements_glue (x : List Char) :
    squeezedStatements ([], false) (Squeezing.glue isSpace ' ' x) =
      squeezedStatements ([], false) (Squeezing.squeeze isSpace ' ' x) := by
  cases x with
  | nil => rfl
  | cons ch x =>
    cases hch : isSpace ch with
    | true =>
      rw [Squeezing.glue_blank hch, Squeezing.squeeze_blank hch]
      split
      · rename_i hnil
        rw [hnil]
      · rfl
    | false => rw [Squeezing.glue_letter hch, Squeezing.squeeze_letter hch]

theorem squeezedStatements_blank {ch : Char} (hch : isSpace ch = true) (st : List Char × Bool) (line : List Char) :
    squeezedStatements st (ch :: line) = squeezedStatements (Squeezing.due st) line := by
  have hsemicolon : ch ≠ ';' := by
    rintro rfl
    cases hch
  rw [squeezedStatements, Squeezing.step_blank hch, if_neg hsemicolon]

/-- The statements of a line do not depend on its white space; behind the start of a
statement the white space in front is kept. -/
theorem squeezedStatements_squeeze (line : List Char) :
    squeezedStatements ([], false) line = squeezedStatements ([], false) (Squeezing.squeeze isSpace ' ' line) ∧
      ∀ out, out ≠ [] →
        squeezedStatements (out, false) line = squeezedStatements (out, false) (Squeezing.glue isSpace ' ' line) ∧
          squeezedStatements (out, true) line =
            squeezedStatements (out, false)
              (if Squeezing.squeeze isSpace ' ' line = [] then [] else ' ' :: Squeezing.squeeze isSpace ' ' line) := by
  induction line with
  | nil => exact ⟨rfl, fun out _ => ⟨rfl, rfl⟩⟩
  | cons ch line ih =>
    obtain ⟨hstart, hbehind⟩ := ih
    have hdue : ∀ {out : List Char} (b : Bool), out ≠ [] → Squeezing.due (out, b) = (out, true) := by
      intro out b hne
      rw [Squeezing.due, List.isEmpty_eq_false_iff.mpr hne]
      rfl
    cases hch : isSpace ch with
    | true =>
      rw [squeezedStatements_blank hch, Squeezing.squeeze_blank hch, Squeezing.glue_blank hch]
      refine ⟨hstart, fun out hne => ?_⟩
      rw [squeezedStatements_blank hch, squeezedStatements_blank hch, hdue _ hne, hdue _ hne]
      exact ⟨(hbehind out hne).2, (hbehind out hne).2⟩
    | false =>
      have hletter : ∀ st, squeezedStatements st (ch :: line) =
          squeezedStatements st (ch :: Squeezing.glue isSpace ' ' line) := by
        intro st
        rw [squeezedStatements, squeezedStatements, Squeezing.step_letter hch]
        split
        · rw [squeezedStatements_glue, hstart]
        · exact (hbehind _ (by simp)).1
      rw [Squeezing.squeeze_letter hch, Squeezing.glue_letter hch, if_neg (List.cons_ne_nil _ _)]
      refine ⟨hletter _, fun out hne => ⟨hletter _, ?_⟩⟩
      rw [hletter, squeezedStatements_blank (show isSpace ' ' = true from rfl), hdue _ hne]

theorem normalize_splitScanStatements (line : List Char) :
    (splitScanStatements line).map normalizeScanDirectiveLine =
      squeezedStatements ([], false) (normalizeScanDirectiveLine line) :=
  (normalize_splitScanStatementsFrom [] line).trans (squeezedStatements_squeeze line).1

/-- The scans have read the same but for the white space. -/
structure ModuleScan.Alike (m n : ModuleScan) : Prop where
  pending : m.pending.map normalizeScanDirectiveLine = n.pending.map normalizeScanDirectiveLine
  moduleName : m.moduleName = n.moduleName

theorem looksLike_congr (h : normalizeScanDirectiveLine a = normalizeScanDirectiveLine b) :
    looksLikeNamedModuleScanPrefix a = looksLikeNamedModuleScanPrefix b := by
  unfold looksLikeNamedModuleScanPrefix
  rw [h]

theorem isGlobal_congr (h : normalizeScanDirectiveLine a = normalizeScanDirectiveLine b) :
    isGlobalModuleFragmentScanLine a = isGlobalModuleFragmentScanLine b := by
  unfold isGlobalModuleFragmentScanLine
  rw [h]

theorem contains_congr (h : normalizeScanDirectiveLine a = normalizeScanDirectiveLine b) :
    a.contains ';' = b.contains ';' := by
  have hmem : ∀ a : List Char, a.contains ';' = (normalizeScanDirectiveLine a).contains ';' := by
    intro a
    rw [Bool.eq_iff_iff, List.contains_iff_mem, List.contains_iff_mem]
    exact (Squeezing.mem_squeeze rfl rfl).symm
  rw [hmem a, hmem b, h]

theorem ModuleScan.extend_congr (hpending : normalizeScanDirectiveLine a = normalizeScanDirectiveLine b)
    (hstatement : normalizeScanDirectiveLine x = normalizeScanDirectiveLine y) :
    (ModuleScan.extend a x).Alike (ModuleScan.extend b y) := by
  unfold ModuleScan.extend
  rw [contains_congr hstatement, looksLike_congr hpending, isGlobal_congr hpending]
  split
  · refine ⟨rfl, ?_⟩
    unfold parseNamedModuleNameFromScanLine
    rw [hpending]
  · split
    · exact ⟨rfl, rfl⟩
    · exact ⟨congrArg some hpending, rfl⟩

theorem ModuleScan.Alike.step {m n : ModuleScan} (h : m.Alike n)
    (hstatement : normalizeScanDirectiveLine x = normalizeScanDirectiveLine y) : (m.step x).Alike (n.step y) := by
  unfold ModuleScan.step
  rw [h.moduleName]
  split
  · exact h
  · have hpending := h.pending
    cases hm : m.pending with
    | none =>
      cases hn : n.pending with
      | none =>
        rw [looksLike_congr hstatement, isGlobal_congr hstatement]
        dsimp only
        split
        · exact h
        · exact ModuleScan.extend_congr hstatement hstatement
      | some pending' =>
        rw [hm, hn] at hpending
        cases hpending
    | some pending =>
      cases hn : n.pending with
      | none =>
        rw [hm, hn] at hpending
        cases hpending
      | some pending' =>
        rw [hm, hn] at hpending
        refine ModuleScan.extend_congr ?_ hstatement
        have hsqueeze : ∀ x y, normalizeScanDirectiveLine (x ++ ' ' :: y) =
            if normalizeScanDirectiveLine x = [] then normalizeScanDirectiveLine y
            else normalizeScanDirectiveLine x ++
              if normalizeScanDirectiveLine y = [] then [] else ' ' :: normalizeScanDirectiveLine y :=
          Squeezing.squeeze_append_cons rfl
        rw [hsqueeze, hsqueeze, Option.some.inj hpending, hstatement]

theorem ModuleScan.Alike.foldl {m n : ModuleScan} (h : m.Alike n) :
    ∀ {xs ys : List (List Char)}, xs.map normalizeScanDirectiveLine = ys.map normalizeScanDirectiveLine →
      (xs.foldl ModuleScan.step m).Alike (ys.foldl ModuleScan.step n) := by
  intro xs
  induction xs generalizing m n with
  | nil =>
    intro ys hmap
    cases ys with
    | nil => exact h
    | cons y ys => cases hmap
  | cons x xs ih =>
    intro ys hmap
    cases ys with
    | nil => cases hmap
    | cons y ys =>
      obtain ⟨hhead, htail⟩ := List.cons.inj hmap
      exact ih (h.step hhead) htail

theorem namedModuleName_congr {lines lines' : List (List Char)}
    (h : lines.map normalizeScanDirectiveLine = lines'.map normalizeScanDirectiveLine) :
    namedModuleName lines = namedModuleName lines' := by
  have hsplit : ∀ lines : List (List Char), (lines.flatMap splitScanStatements).map normalizeScanDirectiveLine =
      (lines.map normalizeScanDirectiveLine).flatMap (squeezedStatements ([], false)) := by
    intro lines
    rw [List.map_flatMap, List.flatMap_map]
    exact List.flatMap_congr fun line _ => normalize_splitScanStatements line
  have hstart : ModuleScan.Alike {} {} := ⟨rfl, rfl⟩
  exact (hstart.foldl ((hsplit lines).trans (h ▸ (hsplit lines').symm))).moduleName

end Gentest.Scan
