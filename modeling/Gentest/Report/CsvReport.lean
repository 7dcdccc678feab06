import Gentest.Lib.Csv
import Gentest.Lib.Grouping
import Gentest.Report.ReportTables

/-!
# The long-form CSV report

Every field of a machine row is one record that names its report, its table and
its row. A reader finds the rows again by grouping the records by these three
cells, which works as long as no two rows have all three in common. The row
index starts over in each table, and all histogram tables have one id.

A `char` is the character with its code; no function here looks at one beyond
the ASCII range.
-/

namespace Gentest.Report

open Csv (Writes)

-- ---------------------------------------------------------------------------
-- Printing
-- ---------------------------------------------------------------------------

def escapeCsvCell (value : List Char) : List Char :=
  let quote := value.any ([',', '"', '\n', '\r'].contains ·) ||
    (!value.isEmpty && (value.head? == some ' ' || value.getLast? == some ' '))
  if !quote then value
  else ['"'] ++ value.flatMap (fun ch => (if ch = '"' then ['"'] else []) ++ [ch]) ++ ['"']

def MachineValueKind.name : MachineValueKind → String
  | .string => "string"
  | .number => "number"
  | .bool => "bool"
  | .null => "null"

def printCsvRecord (cells : List String) : List Char :=
  [','].intercalate (cells.map fun cell => escapeCsvCell cell.toList) ++ ['\n']

def csvHeader : List String := ["report", "table", "row", "field", "type", "value"]

def ReportTable.csvRecords (t : ReportTable) : List (List String) :=
  t.machineRows.zipIdx.flatMap fun row => row.1.map fun field =>
    [t.reportName, t.tableId, toString row.2, field.key, field.kind.name, field.value]

def MeasuredReportIssue.fields (issue : MeasuredReportIssue) : List MachineField :=
  [{ key := "name", value := issue.name },
    { key := "file", value := issue.file },
    { key := "line", value := toString issue.line, kind := .number },
    { key := "message", value := issue.message },
    { key := "infrastructure", value := if issue.infrastructure then "true" else "false"
      kind := .bool }]

def issueRecords (issues : List MeasuredReportIssue) : List (List String) :=
  issues.zipIdx.flatMap fun issue => issue.1.fields.map fun field =>
    ["measured", "issues", toString issue.2, field.key, field.kind.name, field.value]

def csvRecords (tables : List ReportTable) (issues : List MeasuredReportIssue) :
    List (List String) :=
  tables.flatMap ReportTable.csvRecords ++ issueRecords issues

def printCsvReport (tables : List ReportTable) (issues : List MeasuredReportIssue) : List Char :=
  printCsvRecord csvHeader ++ (csvRecords tables issues).flatMap printCsvRecord

-- ---------------------------------------------------------------------------
-- Reading
-- ---------------------------------------------------------------------------

def csvMarks : Csv.Marks Char where
  comma := ','
  quote := '"'
  cr := '\r'
  lf := '\n'
  distinct := by decide

theorem escapeCsvCell_writes (value : List Char) : Writes csvMarks value (escapeCsvCell value) := by
  simp only [escapeCsvCell]
  split
  · rename_i hquote
    refine .plain fun ch hch => ?_
    simp only [Bool.not_eq_true', Bool.or_eq_false_iff, List.any_eq_false] at hquote
    have hch := hquote.1 ch hch
    simp only [List.contains_eq_mem, List.mem_cons, List.not_mem_nil, decide_eq_true_eq] at hch
    simp only [csvMarks, List.mem_cons, List.not_mem_nil]
    tauto
  · have hdouble : (value.flatMap fun ch => (if ch = '"' then ['"'] else []) ++ [ch]) =
        Csv.double '"' value := by
      unfold Csv.double
      congr 1
      funext ch
      by_cases hch : ch = '"'
      · simp [hch]
      · simp [hch]
    rw [hdouble]
    exact .quoted

theorem printCsvRecord_eq (cells : List String) :
    printCsvRecord cells =
      Csv.recordText csvMarks escapeCsvCell (cells.map String.toList) := by
  simp [printCsvRecord, Csv.recordText, csvMarks, Function.comp_def]

theorem csvRecords_ne_nil {tables : List ReportTable} {issues : List MeasuredReportIssue} :
    ∀ record ∈ csvRecords tables issues, record ≠ [] := by
  intro record hrecord
  simp only [csvRecords, List.mem_append, List.mem_flatMap, ReportTable.csvRecords, issueRecords,
    List.mem_map] at hrecord
  rcases hrecord with ⟨t, -, row, -, field, -, rfl⟩ | ⟨issue, -, field, -, rfl⟩ <;> simp

/-- The reader returns the emitted records, whatever is in their cells. -/
theorem read_printCsvReport (tables : List ReportTable) (issues : List MeasuredReportIssue) :
    Csv.read csvMarks (printCsvReport tables issues) =
      some ((csvHeader :: csvRecords tables issues).map (·.map String.toList)) := by
  have htext : printCsvReport tables issues =
      ((csvHeader :: csvRecords tables issues).map (·.map String.toList)).flatMap
        (Csv.recordText csvMarks escapeCsvCell) := by
    rw [List.flatMap_map, List.flatMap_cons, ← printCsvRecord_eq]
    simp only [← printCsvRecord_eq, printCsvReport]
  rw [htext]
  refine Csv.read_records escapeCsvCell_writes ?_
  intro record hrecord
  obtain ⟨cells, hcells, rfl⟩ := List.mem_map.mp hrecord
  rcases List.mem_cons.mp hcells with rfl | hcells
  · simp [csvHeader]
  · simpa using csvRecords_ne_nil cells hcells

-- ---------------------------------------------------------------------------
-- Grouping
-- ---------------------------------------------------------------------------

abbrev RowKey := String × String × String

abbrev RowField := String × String × String

def rowEntry : List String → Option (RowKey × RowField)
  | [report, table, row, field, type, value] => some ((report, table, row), (field, type, value))
  | _ => none

def groupRecords (records : List (List String)) : List (RowKey × List RowField) :=
  Grouping.groups (records.filterMap rowEntry)

def rowFields (fields : List MachineField) : List RowField :=
  fields.map fun field => (field.key, field.kind.name, field.value)

/-- The rows of a table of a report, with their keys. -/
def keyedRows (report table : String) (rows : List (List MachineField)) :
    List (RowKey × List RowField) :=
  rows.zipIdx.map fun row => ((report, table, toString row.2), rowFields row.1)

def ReportTable.rows (t : ReportTable) : List (RowKey × List RowField) :=
  keyedRows t.reportName t.tableId t.machineRows

/-- The machine rows and the issues of a report, each on its own. -/
def reportRows (tables : List ReportTable) (issues : List MeasuredReportIssue) :
    List (RowKey × List RowField) :=
  tables.flatMap ReportTable.rows ++
    keyedRows "measured" "issues" (issues.map MeasuredReportIssue.fields)

theorem filterMap_rowEntry_keyedRows (report table : String) (rows : List (List MachineField)) :
    (rows.zipIdx.flatMap fun row => row.1.map fun field =>
      [report, table, toString row.2, field.key, field.kind.name, field.value]).filterMap
        rowEntry = Grouping.entries (keyedRows report table rows) := by
  simp [Grouping.entries, keyedRows, rowFields, List.filterMap_flatMap, List.flatMap_map,
    rowEntry, Function.comp_def]

theorem issueRecords_eq (issues : List MeasuredReportIssue) :
    issueRecords issues = (issues.map MeasuredReportIssue.fields).zipIdx.flatMap fun row =>
      row.1.map fun field =>
        ["measured", "issues", toString row.2, field.key, field.kind.name, field.value] := by
  simp [issueRecords, List.zipIdx_map, List.flatMap_map]

theorem filterMap_rowEntry_csvRecords (tables : List ReportTable)
    (issues : List MeasuredReportIssue) :
    (csvRecords tables issues).filterMap rowEntry =
      Grouping.entries (reportRows tables issues) := by
  have hentries : ∀ a b : List (RowKey × List RowField),
      Grouping.entries (a ++ b) = Grouping.entries a ++ Grouping.entries b := by
    simp [Grouping.entries]
  rw [csvRecords, List.filterMap_append, reportRows, hentries, issueRecords_eq,
    filterMap_rowEntry_keyedRows]
  congr 1
  rw [List.filterMap_flatMap]
  simp only [ReportTable.csvRecords, filterMap_rowEntry_keyedRows]
  simp [Grouping.entries, ReportTable.rows, List.flatMap_assoc]

-- ---------------------------------------------------------------------------
-- Keys of rows
-- ---------------------------------------------------------------------------

theorem toString_nat_inj {i j : Nat} : toString i = toString j ↔ i = j := by
  constructor
  · intro h
    have hdigits : Nat.toDigits 10 i = Nat.toDigits 10 j := by
      rw [← Nat.toList_repr, ← Nat.toList_repr]
      exact congrArg String.toList h
    rw [← Nat.ofDigitChars_ten_toDigits (n := i), hdigits, Nat.ofDigitChars_ten_toDigits]
  · rintro rfl
    rfl

theorem keyedRows_keys (report table : String) (rows : List (List MachineField)) :
    (keyedRows report table rows).map Prod.fst =
      (List.range rows.length).map fun i => (report, table, toString i) := by
  rw [keyedRows, List.map_map, List.range_eq_range', ← List.zipIdx_map_snd 0 rows, List.map_map]
  rfl

theorem keyedRows_keys_nodup (report table : String) (rows : List (List MachineField)) :
    ((keyedRows report table rows).map Prod.fst).Nodup := by
  rw [keyedRows_keys]
  refine List.Nodup.map ?_ List.nodup_range
  intro i j h
  exact toString_nat_inj.mp (Prod.mk.inj (Prod.mk.inj h).2).2

/-- Two tables share a key when they have the same report and id, and each has
a row: their rows with index zero. -/
theorem keyedRows_disjoint (report table report' table' : String)
    (rows rows' : List (List MachineField)) :
    List.Disjoint ((keyedRows report table rows).map Prod.fst)
        ((keyedRows report' table' rows').map Prod.fst) ↔
      ((report, table) = (report', table') → rows = [] ∨ rows' = []) := by
  simp only [keyedRows_keys]
  constructor
  · intro hdisjoint heq
    by_contra hne
    push Not at hne
    obtain ⟨rfl, rfl⟩ := Prod.mk.inj heq
    have hzero : ∀ l : List (List MachineField), l ≠ [] →
        (report, table, toString 0) ∈
          (List.range l.length).map fun i => (report, table, toString i) := by
      intro l hl
      exact List.mem_map.mpr ⟨0, List.mem_range.mpr (List.length_pos_iff.mpr hl), rfl⟩
    exact hdisjoint (hzero rows hne.1) (hzero rows' hne.2)
  · intro h key hkey hkey'
    obtain ⟨i, hi, rfl⟩ := List.mem_map.mp hkey
    obtain ⟨j, hj, heq⟩ := List.mem_map.mp hkey'
    obtain ⟨hreport, heq⟩ := Prod.mk.inj heq
    have htable := (Prod.mk.inj heq).1
    rcases h (by rw [hreport, htable]) with rfl | rfl
    · simp at hi
    · simp at hj

/-- Rows that share the report and the table of their keys. -/
structure Section where
  report : String
  table : String
  rows : List (List MachineField)

def Section.name (s : Section) : String × String := (s.report, s.table)

def ReportTable.section (t : ReportTable) : Section := ⟨t.reportName, t.tableId, t.machineRows⟩

def issueSection (issues : List MeasuredReportIssue) : Section :=
  ⟨"measured", "issues", issues.map MeasuredReportIssue.fields⟩

def Section.keyed (s : Section) : List (RowKey × List RowField) :=
  keyedRows s.report s.table s.rows

def sections (tables : List ReportTable) (issues : List MeasuredReportIssue) : List Section :=
  tables.map ReportTable.section ++ [issueSection issues]

theorem reportRows_eq (tables : List ReportTable) (issues : List MeasuredReportIssue) :
    reportRows tables issues = (sections tables issues).flatMap Section.keyed := by
  simp [reportRows, sections, List.flatMap_map]
  rfl

def Section.Apart (s s' : Section) : Prop := s.name = s'.name → s.rows = [] ∨ s'.rows = []

theorem keyed_nodup_iff (l : List Section) :
    ((l.flatMap Section.keyed).map Prod.fst).Nodup ↔ l.Pairwise Section.Apart := by
  rw [List.map_flatMap, List.nodup_flatMap]
  constructor
  · rintro ⟨-, hpairwise⟩
    exact hpairwise.imp fun h => (keyedRows_disjoint ..).mp h
  · intro hpairwise
    refine ⟨fun s _ => keyedRows_keys_nodup .., hpairwise.imp ?_⟩
    intro s s' h
    exact (keyedRows_disjoint ..).mpr h

theorem pairwise_apart_iff {before between after : List Section} {name : String × String}
    (hnodup : ((before ++ after).map Section.name).Nodup)
    (hname : ∀ s ∈ between, s.name = name) (hnew : name ∉ (before ++ after).map Section.name) :
    (before ++ between ++ after).Pairwise Section.Apart ↔ between.Pairwise Section.Apart := by
  have hothers : (before ++ after).Pairwise Section.Apart := by
    refine (List.pairwise_map.mp hnodup).imp ?_
    intro s s' hne heq
    exact absurd heq hne
  have hapart : ∀ s ∈ between, ∀ s' ∈ before ++ after, s.Apart s' ∧ s'.Apart s := by
    intro s hs s' hs'
    have hne : s'.name ≠ s.name := by
      rw [hname s hs]
      exact fun heq => hnew (heq ▸ List.mem_map_of_mem hs')
    exact ⟨fun heq => absurd heq.symm hne, fun heq => absurd heq hne⟩
  rw [List.pairwise_append] at hothers
  rw [List.pairwise_append, List.pairwise_append]
  constructor
  · rintro ⟨⟨-, hbetween, -⟩, -⟩
    exact hbetween
  · intro hbetween
    refine ⟨⟨hothers.1, hbetween, ?_⟩, hothers.2.1, ?_⟩
    · exact fun s hs s' hs' => (hapart s' hs' s (List.mem_append_left _ hs)).2
    · intro s hs s' hs'
      rcases List.mem_append.mp hs with hs | hs
      · exact hothers.2.2 s hs s' hs'
      · exact (hapart s hs s' (List.mem_append_right _ hs')).1

/-- The records group into the rows exactly when no two sections with rows
have the same report and table. -/
theorem groupRecords_iff {tables : List ReportTable} {issues : List MeasuredReportIssue}
    (hne : ∀ t ∈ tables, ∀ row ∈ t.machineRows, row ≠ []) :
    groupRecords (csvRecords tables issues) = reportRows tables issues ↔
      (sections tables issues).Pairwise Section.Apart := by
  have hblocks : ∀ block ∈ reportRows tables issues, block.2 ≠ [] := by
    intro block hblock
    rw [reportRows_eq] at hblock
    obtain ⟨s, hs, hblock⟩ := List.mem_flatMap.mp hblock
    obtain ⟨⟨row, i⟩, hrow, rfl⟩ := List.mem_map.mp hblock
    have hrow : row ∈ s.rows := List.fst_mem_of_mem_zipIdx hrow
    have hrow : row ≠ [] := by
      rcases List.mem_append.mp hs with hs | hs
      · obtain ⟨t, ht, rfl⟩ := List.mem_map.mp hs
        exact hne t ht row hrow
      · obtain rfl := List.mem_singleton.mp hs
        obtain ⟨issue, -, rfl⟩ := List.mem_map.mp hrow
        simp [MeasuredReportIssue.fields]
    simpa [rowFields] using hrow
  rw [groupRecords, filterMap_rowEntry_csvRecords, Grouping.groups_entries hblocks,
    reportRows_eq, keyed_nodup_iff]

-- ---------------------------------------------------------------------------
-- Measured reports
-- ---------------------------------------------------------------------------

variable {F : Type} (d : Doubles F)

theorem tables_rows_ne_nil (m : Measurements F) :
    ∀ t ∈ m.tables d, ∀ row ∈ t.machineRows, row ≠ [] := by
  intro t ht row hrow
  rcases List.mem_append.mp ht with ht | ht
  · rw [List.mem_ite_nil_right, buildBenchReportTables] at ht
    simp only [List.mem_cons, List.not_mem_nil, or_false] at ht
    rcases ht with ⟨-, rfl | rfl⟩
    · obtain ⟨shown, -, rfl⟩ := List.mem_map.mp hrow
      simp [benchSummaryRow]
    · obtain ⟨shown, -, rfl⟩ := List.mem_map.mp hrow
      simp [benchDebugRow]
  · rw [List.mem_ite_nil_right, buildJitterReportTables] at ht
    simp only [List.mem_append, List.mem_cons, List.not_mem_nil, or_false, List.mem_map] at ht
    rcases ht with ⟨-, (rfl | rfl) | ⟨shown, -, rfl⟩⟩
    · obtain ⟨shown, -, rfl⟩ := List.mem_map.mp hrow
      simp [jitterSummaryRow]
    · obtain ⟨shown, -, rfl⟩ := List.mem_map.mp hrow
      simp [jitterDebugRow]
    · obtain ⟨bin, -, rfl⟩ := List.mem_map.mp hrow
      simp [histogramRow]

/-- A jitter case that is shown and has something to put in a histogram: the
bins that were computed with the samples, or the samples when these were
computed for another number of bins. -/
def hasHistogram (opt : CliOptions F) (row : JitterReportRow F) : Bool :=
  row.c.isSome &&
    if row.result.histogramBins = opt.jitterBins then !row.result.histogram.isEmpty
    else !row.result.samplesNs.isEmpty

theorem computeHistogram_eq_nil (samples : List F) (bins : Int) :
    computeHistogram d samples bins = [] ↔ samples = [] := by
  cases samples with
  | nil => simp [computeHistogram]
  | cons first rest =>
    have hbins : (if bins > 0 then bins.toNat else 1) ≠ 0 := by
      split <;> omega
    simp only [computeHistogram, List.map_eq_nil_iff, List.range_eq_nil, reduceCtorEq, iff_false]
    split
    · exact Nat.one_ne_zero
    · exact hbins

theorem histogramTable_rows_eq_nil (opt : CliOptions F) (c : Case) (r : JitterResult F) :
    (histogramTable d opt c r).machineRows = [] ↔
      hasHistogram opt { c := some c, result := r } = false := by
  unfold histogramTable
  rw [List.map_eq_nil_iff, List.zipIdx_eq_nil_iff, perItemHistogramBins, List.map_eq_nil_iff,
    selectJitterHistogram]
  by_cases hbins : r.histogramBins = opt.jitterBins
  · simp [hasHistogram, hbins]
  · simp [hasHistogram, hbins, computeHistogram_eq_nil]

/-- At most one element has a property when any two of them include one that
does not. -/
theorem pairwise_or_iff_countP_le_one {α : Type} (p : α → Bool) (l : List α) :
    l.Pairwise (fun a b => p a = false ∨ p b = false) ↔ l.countP p ≤ 1 := by
  induction l with
  | nil => simp
  | cons a l ih =>
    rw [List.pairwise_cons, ih, List.countP_cons]
    cases ha : p a with
    | false => simp
    | true =>
      have hzero : (∀ b ∈ l, p b = false) ↔ l.countP p = 0 := by
        simp [List.countP_eq_zero]
      simp only [Bool.true_eq_false, false_or, hzero, if_true]
      omega

theorem pairwise_histogramTable_iff (opt : CliOptions F) (rows : List (JitterReportRow F)) :
    ((shownRows rows).map fun row => (histogramTable d opt row.1 row.2).section).Pairwise
        Section.Apart ↔ rows.countP (hasHistogram opt) ≤ 1 := by
  have hcount : rows.countP (hasHistogram opt) =
      (shownRows rows).countP fun row => hasHistogram opt { c := some row.1, result := row.2 } := by
    rw [shownRows, List.countP_filterMap]
    congr 1
    funext row
    cases hc : row.c with
    | none => simp [hasHistogram, hc]
    | some c => simp [hasHistogram, hc]
  rw [hcount, ← pairwise_or_iff_countP_le_one, List.pairwise_map]
  refine List.Pairwise.iff fun row row' => ?_
  rw [← histogramTable_rows_eq_nil d, ← histogramTable_rows_eq_nil d]
  exact ⟨fun h => h rfl, fun h _ => h⟩

def fixedTables (m : Measurements F) : List ReportTable :=
  (if m.includesBench then buildBenchReportTables d m.benchRows m.opt else []) ++
    (if m.includesJitter then (buildJitterReportTables d m.jitterRows m.opt).take 2 else [])

theorem sections_eq (m : Measurements F) :
    sections (m.tables d) m.issues =
      (fixedTables d m).map ReportTable.section ++
        ((shownRows m.jitterRows).map fun row =>
          (histogramTable d m.opt row.1 row.2).section) ++ [issueSection m.issues] := by
  have hshown : m.includesJitter = false → shownRows m.jitterRows = [] := by
    intro h
    simp only [Measurements.includesJitter, Bool.or_eq_false_iff, Bool.not_eq_false',
      List.isEmpty_iff] at h
    rw [h.2]
    rfl
  cases hjitter : m.includesJitter with
  | false =>
    simp [sections, Measurements.tables, fixedTables, hjitter, hshown hjitter]
  | true =>
    simp [sections, Measurements.tables, fixedTables, hjitter, buildJitterReportTables,
      Function.comp_def]

/-- The names of all sections but the histograms. -/
def fixedNames (bench jitter : Bool) : List (String × String) :=
  (if bench then [("bench", "bench.summary"), ("bench", "bench.debug")] else []) ++
    (if jitter then [("jitter", "jitter.summary"), ("jitter", "jitter.debug")] else []) ++
    [("measured", "issues")]

theorem fixedTables_names (m : Measurements F) :
    ((fixedTables d m).map ReportTable.section ++ [issueSection m.issues]).map Section.name =
      fixedNames m.includesBench m.includesJitter := by
  cases hbench : m.includesBench <;> cases hjitter : m.includesJitter <;>
    simp only [fixedTables, hbench, hjitter] <;> rfl

theorem sections_pairwise_iff (m : Measurements F) :
    (sections (m.tables d) m.issues).Pairwise Section.Apart ↔
      m.jitterRows.countP (hasHistogram m.opt) ≤ 1 := by
  have hnames : ∀ bench jitter, (fixedNames bench jitter).Nodup ∧
      ("jitter", "jitter.histogram") ∉ fixedNames bench jitter := by
    decide
  have hfixed := hnames m.includesBench m.includesJitter
  rw [← fixedTables_names d m] at hfixed
  rw [sections_eq, pairwise_apart_iff hfixed.1 ?_ hfixed.2, pairwise_histogramTable_iff]
  intro s hs
  obtain ⟨row, -, rfl⟩ := List.mem_map.mp hs
  rfl

/-- The CSV report can be read back: the reader returns the emitted records,
and grouping them gives the rows of the report, one by one. -/
structure CsvDeterminesRows (m : Measurements F) : Prop where
  read : Csv.read csvMarks (printCsvReport (m.tables d) m.issues) =
    some ((csvHeader :: csvRecords (m.tables d) m.issues).map (·.map String.toList))
  rows : groupRecords (csvRecords (m.tables d) m.issues) = reportRows (m.tables d) m.issues

theorem groupRecords_measured_iff (m : Measurements F) :
    groupRecords (csvRecords (m.tables d) m.issues) = reportRows (m.tables d) m.issues ↔
      m.jitterRows.countP (hasHistogram m.opt) ≤ 1 := by
  rw [groupRecords_iff (tables_rows_ne_nil d m), sections_pairwise_iff]

/-- The rows of two histograms are merged, and nothing else is. -/
theorem csv_report_determines_rows_iff (m : Measurements F) :
    CsvDeterminesRows d m ↔ m.jitterRows.countP (hasHistogram m.opt) ≤ 1 := by
  rw [← groupRecords_measured_iff]
  exact ⟨fun h => h.rows, fun h => ⟨read_printCsvReport _ _, h⟩⟩

/-- A jitter case with a single sample of the given length. -/
def singleSample (name : String) (ns : Int) : JitterReportRow Int where
  c := some { name }
  result :=
    { itersPerEpoch := 1, batchMode := false, minNs := ns, maxNs := ns, medianNs := ns
      meanNs := ns, stddevNs := 0, p05Ns := ns, p95Ns := ns, overheadMeanNs := 0
      overheadSdNs := 0, overheadRatioPct := 0, totalTimeS := 0, warmupTimeS := 0
      wallTimeS := 0, histogramBins := 10
      histogram := computeHistogram wholeDoubles [ns] 10, samplesNs := [ns] }

def twoJitterCases : Measurements Int where
  benchRows := []
  jitterRows := [singleSample "fast" 5, singleSample "slow" 50]
  opt := { jitterBins := 10, minEpochTimeS := 0, minTotalTimeS := 0, maxTotalTimeS := 1 }

theorem two_histograms_are_merged : ¬CsvDeterminesRows wholeDoubles twoJitterCases := by
  intro h
  have hcount := (groupRecords_measured_iff wholeDoubles twoJitterCases).mp h.rows
  exact absurd hcount (by decide)

end Gentest.Report
