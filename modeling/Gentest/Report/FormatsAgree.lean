import Gentest.Report.CompareReports

/-!
# The two formats of one report

The loaders read the same cases from both formats of a report, with the same
suites and with the same numbers under every field that holds one. They differ
on the two fields that hold text: a benchmark or a suite whose name reads as a
number becomes a metric in JSON only.
-/

namespace Gentest.Report

variable {F : Type} {d : Doubles F}

/-- The library formats a finite value as a JSON number that reads back as a
finite value. -/
structure FormatsDoubles (d : Doubles F) : Prop where
  number : FormatsNumbers d
  finite : ∀ x, d.isFinite x = true → (pyFloat (d.format x)).isSome

/-- The counts in the summaries are values of `std::size_t`. -/
structure Measurements.Sized (m : Measurements F) : Prop where
  bench : ∀ row ∈ shownRows m.benchRows,
    row.1.itemsPerCall < 2 ^ 64 ∧ row.2.epochs < 2 ^ 64 ∧ row.2.itersPerEpoch < 2 ^ 64
  jitter : ∀ row ∈ shownRows m.jitterRows,
    row.1.itemsPerCall < 2 ^ 64 ∧ row.2.samplesNs.length < 2 ^ 64

-- ---------------------------------------------------------------------------
-- Summary rows
-- ---------------------------------------------------------------------------

theorem machineString_finite (key value : String) : (machineString key value).Finite := nofun

theorem machineBool_finite (key : String) (b : Bool) : (machineBool key b).Finite := nofun

theorem machineNull_finite (key : String) : (machineNull key).Finite := nofun

theorem value_toString (n : Nat) : Decimal.value (toString n).toList = some (n : ℚ) := by
  have hdigits := isDigit_toString n
  rw [toList_toString] at hdigits ⊢
  rw [Decimal.value, Decimal.signed_digits hdigits,
    Decimal.unsigned_digits Nat.toDigits_ne_nil hdigits, Decimal.digitsValue,
    Nat.ofDigitChars_ten_toDigits]

theorem machineCount_finite {n : Nat} (key : String) (h : n < 2 ^ 64) :
    (machineCount key n).Finite := by
  intro _
  have hnumber : Json.isNumber (toString n).toList = true := isNumber_toString n
  have hfloat := pyFloat_number (Json.isNumber_chars hnumber)
  rw [String.ofList_toList, value_toString, Option.bind_some] at hfloat
  refine ⟨hnumber, ?_⟩
  rw [machineCount, hfloat]
  exact Binary64.round_natCast_isSome h (by decide)

theorem machineNumber_finite (h : FormatsDoubles d) (key : String) (x : F) :
    (machineNumber d key x).Finite := by
  unfold machineNumber formatMachineNumber
  cases hx : d.isFinite x with
  | false => exact machineNull_finite key
  | true =>
    simp only [Bool.not_true, Bool.false_eq_true, if_false]
    split
    · exact machineNull_finite key
    · exact fun _ => ⟨h.number x hx, h.finite x hx⟩

theorem machineOptionalPct_finite (h : FormatsDoubles d) (key : String) (present : Bool) (x : F) :
    (machineOptionalPct d key present x).Finite := by
  unfold machineOptionalPct
  split
  · exact machineNumber_finite h key x
  · exact machineNull_finite key

@[simp] theorem machineNumber_key (key : String) (x : F) : (machineNumber d key x).key = key := by
  unfold machineNumber machineNull
  dsimp only
  split <;> rfl

@[simp] theorem machineOptionalPct_key (key : String) (present : Bool) (x : F) :
    (machineOptionalPct d key present x).key = key := by
  unfold machineOptionalPct
  split
  · exact machineNumber_key key x
  · rfl

theorem machineNumber_kind (key : String) (x : F) : (machineNumber d key x).kind ≠ .string := by
  unfold machineNumber machineNull
  dsimp only
  split <;> simp

theorem machineOptionalPct_kind (key : String) (present : Bool) (x : F) :
    (machineOptionalPct d key present x).kind ≠ .string := by
  unfold machineOptionalPct machineNull
  split
  · exact machineNumber_kind key x
  · simp

theorem items_lt {c : Case} (h : c.itemsPerCall < 2 ^ 64) : c.items < 2 ^ 64 := by
  unfold Case.items
  split
  · decide
  · exact h

theorem benchSummaryRow_summary (h : FormatsDoubles d) (rows : List (BenchReportRow F)) {c : Case}
    {r : BenchResult F} (hitems : c.itemsPerCall < 2 ^ 64) (hepochs : r.epochs < 2 ^ 64)
    (hiters : r.itersPerEpoch < 2 ^ 64) : SummaryRow c (benchSummaryRow d rows c r) := by
  have hnumber := machineNumber_kind (d := d)
  have hpct := machineOptionalPct_kind (d := d)
  refine ⟨⟨_, rfl, ?_⟩, ?_, ?_⟩
  · simp [hnumber, hpct, machineBool, machineCount]
  · simp [benchSummaryRow, machineString, machineBool, machineCount]
  · simp only [benchSummaryRow, List.forall_mem_cons, List.not_mem_nil, IsEmpty.forall_iff,
      implies_true, machineString_finite, machineBool_finite, machineCount_finite _ hepochs,
      machineCount_finite _ hiters, machineCount_finite _ (items_lt hitems),
      machineNumber_finite h, machineOptionalPct_finite h, and_true]

theorem jitterSummaryRow_summary (h : FormatsDoubles d) (rows : List (JitterReportRow F))
    {c : Case} {r : JitterResult F} (hitems : c.itemsPerCall < 2 ^ 64)
    (hsamples : r.samplesNs.length < 2 ^ 64) : SummaryRow c (jitterSummaryRow d rows c r) := by
  have hnumber := machineNumber_kind (d := d)
  have hpct := machineOptionalPct_kind (d := d)
  refine ⟨⟨_, rfl, ?_⟩, ?_, ?_⟩
  · simp [hnumber, hpct, machineBool, machineCount]
  · simp [jitterSummaryRow, machineString, machineBool, machineCount]
  · simp only [jitterSummaryRow, List.forall_mem_cons, List.not_mem_nil, IsEmpty.forall_iff,
      implies_true, machineString_finite, machineBool_finite, machineCount_finite _ hsamples,
      machineCount_finite _ (items_lt hitems), machineNumber_finite h,
      machineOptionalPct_finite h, and_true]

-- ---------------------------------------------------------------------------
-- Cases
-- ---------------------------------------------------------------------------

/-- A summary row with the report and the case it is of. -/
structure SummaryCase where
  kind : String
  c : Case
  row : List MachineField

variable (d) in
def summaryCases (m : Measurements F) : List SummaryCase :=
  ((shownRows m.benchRows).map fun row =>
      ⟨"bench", row.1, benchSummaryRow d m.benchRows row.1 row.2⟩) ++
    (shownRows m.jitterRows).map fun row =>
      ⟨"jitter", row.1, jitterSummaryRow d m.jitterRows row.1 row.2⟩

def SummaryCase.key (s : SummaryCase) : CaseKey := ⟨s.kind, s.c.name⟩

def SummaryCase.entry (number : MachineField → Option ℚ) (s : SummaryCase) :
    CaseKey × CaseMetrics :=
  (s.key, ⟨s.c.suite, metricsOf number s.row⟩)

structure SummaryCase.Ok (s : SummaryCase) : Prop where
  kind : s.kind.isEmpty = false
  row : SummaryRow s.c s.row

theorem filter_summary_tables (m : Measurements F) :
    (m.tables d).filter (fun t => isSummary t.tableId) =
      (if m.includesBench then (buildBenchReportTables d m.benchRows m.opt).take 1 else []) ++
        (if m.includesJitter then (buildJitterReportTables d m.jitterRows m.opt).take 1 else []) := by
  have hbench : isSummary "bench.summary" = true ∧ isSummary "bench.debug" = false := by decide
  have hjitter : isSummary "jitter.summary" = true ∧ isSummary "jitter.debug" = false ∧
      isSummary "jitter.histogram" = false := by decide
  have hhistograms : ((shownRows m.jitterRows).map fun row =>
      histogramTable d m.opt row.1 row.2).filter (fun t => isSummary t.tableId) = [] := by
    rw [List.filter_eq_nil_iff]
    intro t ht
    obtain ⟨row, -, rfl⟩ := List.mem_map.mp ht
    exact Bool.eq_false_iff.mp hjitter.2.2
  rw [Measurements.tables, List.filter_append]
  congr 1
  · split
    · simp [buildBenchReportTables, ReportTable.tableId, hbench]
    · rfl
  · split
    · rw [buildJitterReportTables, List.filter_append, hhistograms]
      simp [ReportTable.tableId, hjitter]
    · rfl

theorem summaryRows_tables (m : Measurements F) :
    summaryRows (m.tables d) = (summaryCases d m).map fun s => (s.kind, s.row) := by
  have hbench : m.includesBench = false → shownRows m.benchRows = [] := by
    intro h
    simp only [Measurements.includesBench, Bool.or_eq_false_iff, Bool.not_eq_false',
      List.isEmpty_iff] at h
    rw [h.2]
    rfl
  have hjitter : m.includesJitter = false → shownRows m.jitterRows = [] := by
    intro h
    simp only [Measurements.includesJitter, Bool.or_eq_false_iff, Bool.not_eq_false',
      List.isEmpty_iff] at h
    rw [h.2]
    rfl
  rw [summaryRows, filter_summary_tables, List.flatMap_append, summaryCases, List.map_append]
  congr 1
  · cases hincludes : m.includesBench with
    | false => simp [hbench hincludes]
    | true => simp [buildBenchReportTables, ReportTable.reportName, Function.comp_def]
  · cases hincludes : m.includesJitter with
    | false => simp [hjitter hincludes]
    | true => simp [buildJitterReportTables, ReportTable.reportName, Function.comp_def]

theorem summaryCases_ok (h : FormatsDoubles d) {m : Measurements F} (hsized : m.Sized) :
    ∀ s ∈ summaryCases d m, s.Ok := by
  intro s hs
  rcases List.mem_append.mp hs with hs | hs
  · obtain ⟨row, hrow, rfl⟩ := List.mem_map.mp hs
    obtain ⟨hitems, hepochs, hiters⟩ := hsized.bench row hrow
    exact ⟨(by decide : "bench".isEmpty = false),
      benchSummaryRow_summary h _ hitems hepochs hiters⟩
  · obtain ⟨row, hrow, rfl⟩ := List.mem_map.mp hs
    obtain ⟨hitems, hsamples⟩ := hsized.jitter row hrow
    exact ⟨(by decide : "jitter".isEmpty = false), jitterSummaryRow_summary h _ hitems hsamples⟩

theorem summaryCases_keys_nodup {m : Measurements F}
    (hbench : ((shownRows m.benchRows).map (·.1.name)).Nodup)
    (hjitter : ((shownRows m.jitterRows).map (·.1.name)).Nodup) :
    ((summaryCases d m).map SummaryCase.key).Nodup := by
  have hkeys : ∀ (kind : String) (names : List String), names.Nodup →
      (names.map fun name => CaseKey.mk kind name).Nodup := by
    intro kind names hnames
    exact hnames.map fun a b h => (CaseKey.mk.inj h).2
  have hmap : (summaryCases d m).map SummaryCase.key =
      ((shownRows m.benchRows).map (·.1.name)).map (fun name => CaseKey.mk "bench" name) ++
        ((shownRows m.jitterRows).map (·.1.name)).map fun name => CaseKey.mk "jitter" name := by
    simp [summaryCases, SummaryCase.key, Function.comp_def]
  rw [hmap, List.nodup_append]
  refine ⟨hkeys _ _ hbench, hkeys _ _ hjitter, ?_⟩
  rintro key hkey key' hkey' rfl
  obtain ⟨name, -, rfl⟩ := List.mem_map.mp hkey
  obtain ⟨name', -, heq⟩ := List.mem_map.mp hkey'
  exact absurd (CaseKey.mk.inj heq).1 (by decide)

theorem foldlM_addCase {entries : List (CaseKey × CaseMetrics)} (cases : Cases)
    (h : (entries.map Prod.fst).Nodup) (hnew : ∀ key ∈ entries.map Prod.fst, cases key = none) :
    entries.foldlM (fun cases entry => addCase cases entry.1 entry.2) cases =
      .ok (Grouping.fill cases entries) := by
  induction entries generalizing cases with
  | nil => rfl
  | cons entry entries ih =>
    rw [List.map_cons, List.nodup_cons] at h
    rw [List.map_cons, List.forall_mem_cons] at hnew
    have hadd : addCase cases entry.1 entry.2 =
        .ok (Function.update cases entry.1 (some entry.2)) := by
      simp [addCase, hnew.1]
    rw [List.foldlM_cons, hadd]
    refine ih _ h.2 fun key hkey => ?_
    have hne : key ≠ entry.1 := fun heq => h.1 (heq ▸ hkey)
    rw [Function.update_of_ne hne]
    exact hnew.2 key hkey

/-- What a loader makes of the cases when it takes the numbers of the fields
from `number`. -/
def loaded (number : MachineField → Option ℚ) (cases : List SummaryCase) : Cases :=
  Grouping.fill (fun _ => none) (cases.map (SummaryCase.entry number))

theorem foldlM_entry {number : MachineField → Option ℚ} {cases : List SummaryCase}
    {add : Cases → String × List MachineField → Except LoadError Cases}
    (hkeys : (cases.map SummaryCase.key).Nodup)
    (hadd : ∀ s ∈ cases, ∀ loaded, add loaded (s.kind, s.row) =
      addCase loaded (s.entry number).1 (s.entry number).2) :
    (cases.map fun s => (s.kind, s.row)).foldlM add (fun _ => none) =
      .ok (loaded number cases) := by
  have hentries : (cases.map fun s => (s.kind, s.row)).foldlM add (fun _ => none) =
      (cases.map (SummaryCase.entry number)).foldlM
        (fun cases entry => addCase cases entry.1 entry.2) fun _ => none := by
    rw [List.foldlM_map, List.foldlM_map]
    exact foldlM_congr hadd _
  rw [hentries]
  refine foldlM_addCase _ ?_ fun _ _ => rfl
  simpa [SummaryCase.entry, Function.comp_def] using hkeys

theorem loaded_inj {number number' : MachineField → Option ℚ} {cases : List SummaryCase}
    (hkeys : (cases.map SummaryCase.key).Nodup) :
    loaded number cases = loaded number' cases ↔
      ∀ s ∈ cases, metricsOf number s.row = metricsOf number' s.row := by
  have hentries : ∀ number, ((cases.map (SummaryCase.entry number)).map Prod.fst).Nodup := by
    intro number
    simpa [SummaryCase.entry, Function.comp_def] using hkeys
  have hloaded : ∀ number, ∀ s ∈ cases,
      loaded number cases s.key = some ⟨s.c.suite, metricsOf number s.row⟩ := by
    intro number s hs
    exact (Grouping.fill_mem (hentries number)).mpr (List.mem_map.mpr ⟨s, hs, rfl⟩)
  constructor
  · intro h s hs
    have hkey := hloaded number s hs
    rw [h, hloaded number' s hs] at hkey
    exact (CaseMetrics.mk.inj (Option.some.inj hkey)).2.symm
  · intro h
    have hmap : cases.map (SummaryCase.entry number) = cases.map (SummaryCase.entry number') :=
      List.map_congr_left fun s hs => by rw [SummaryCase.entry, SummaryCase.entry, h s hs]
    rw [loaded, loaded, hmap]

-- ---------------------------------------------------------------------------
-- Reports
-- ---------------------------------------------------------------------------

/-- Both formats of a report give the same cases. -/
def LoadsAlike (d : Doubles F) (repr : Json → String) (m : Measurements F) : Prop :=
  ∃ cases, loadJson repr (printJsonReport m.reportName (m.tables d) m.issues) = .ok cases ∧
    loadCsvReport (printCsvReport (m.tables d) m.issues) = .ok cases

theorem loadJson_printed (h : FormatsDoubles d) (repr : Json → String) {m : Measurements F}
    (hok : ∀ s ∈ summaryCases d m, s.Ok) (hkeys : ((summaryCases d m).map SummaryCase.key).Nodup) :
    loadJson repr (printJsonReport m.reportName (m.tables d) m.issues) =
      .ok (loaded jsonNumber (summaryCases d m)) := by
  obtain ⟨members, hreport, hload⟩ := loadJsonReport_eq repr m.reportName (m.tables d) m.issues
  rw [loadJson, read_printJsonReport h.number, hreport]
  dsimp only
  rw [hload, summaryRows_tables]
  exact foldlM_entry hkeys fun s hs cases => addJsonRow_summary repr (hok s hs).row s.kind cases

theorem loadCsvReport_printed {m : Measurements F} (hok : ∀ s ∈ summaryCases d m, s.Ok)
    (hkeys : ((summaryCases d m).map SummaryCase.key).Nodup) :
    loadCsvReport (printCsvReport (m.tables d) m.issues) =
      .ok (loaded csvNumber (summaryCases d m)) := by
  have hnames : (((m.tables d).filter fun t => isSummary t.tableId).map fun t =>
      (t.reportName, t.tableId)).Nodup := by
    rw [filter_summary_tables]
    cases m.includesBench <;> cases m.includesJitter <;>
      simp [buildBenchReportTables, buildJitterReportTables, ReportTable.reportName,
        ReportTable.tableId]
  rw [loadCsvReport_eq m.issues (tables_rows_ne_nil d m) hnames, summaryRows_tables]
  exact foldlM_entry hkeys fun s hs cases => addCsvRow_summary (hok s hs).row (hok s hs).kind cases

/-- Neither the name of the case nor its suite reads as a number. -/
def Case.NotNumeric (c : Case) : Prop := pyFloat c.name = none ∧ pyFloat c.suite = none

instance (c : Case) : Decidable c.NotNumeric := inferInstanceAs (Decidable (_ ∧ _))

theorem loadsAlike_iff_notNumeric (h : FormatsDoubles d) (repr : Json → String)
    {m : Measurements F} (hsized : m.Sized)
    (hkeys : ((summaryCases d m).map SummaryCase.key).Nodup) :
    LoadsAlike d repr m ↔ ∀ s ∈ summaryCases d m, s.c.NotNumeric := by
  have hok := summaryCases_ok h hsized
  have hjson := loadJson_printed h repr hok hkeys
  have hcsv := loadCsvReport_printed hok hkeys
  have hcases : LoadsAlike d repr m ↔
      loaded jsonNumber (summaryCases d m) = loaded csvNumber (summaryCases d m) := by
    constructor
    · rintro ⟨cases, hjson', hcsv'⟩
      exact Except.ok.inj ((hjson.symm.trans hjson').trans (hcsv'.symm.trans hcsv))
    · intro heq
      exact ⟨_, heq ▸ hjson, hcsv⟩
  rw [hcases, loaded_inj hkeys]
  exact forall₂_congr fun s hs => (hok s hs).row.metrics_alike_iff

/-- The formats agree unless a name that is shown reads as a number. -/
theorem reports_load_alike_iff (h : FormatsDoubles d) (repr : Json → String) {m : Measurements F}
    (hsized : m.Sized) (hbench : ((shownRows m.benchRows).map (·.1.name)).Nodup)
    (hjitter : ((shownRows m.jitterRows).map (·.1.name)).Nodup) :
    LoadsAlike d repr m ↔
      (∀ row ∈ shownRows m.benchRows, row.1.NotNumeric) ∧
        ∀ row ∈ shownRows m.jitterRows, row.1.NotNumeric := by
  rw [loadsAlike_iff_notNumeric h repr hsized (summaryCases_keys_nodup hbench hjitter),
    summaryCases, List.forall_mem_append, List.forall_mem_map, List.forall_mem_map]

-- ---------------------------------------------------------------------------
-- A benchmark named by a number
-- ---------------------------------------------------------------------------

/-- Whole numbers within the precision of `double`. -/
def exactDoubles : Doubles Int :=
  { wholeDoubles with isFinite := fun x => decide (x.natAbs < 2 ^ 53) }

theorem value_minus_toString (n : Nat) :
    Decimal.value ('-' :: (toString n).toList) = some (-(n : ℚ)) := by
  have hvalue := value_toString n
  rw [Decimal.value, Decimal.signed_digits (isDigit_toString n)] at hvalue
  rw [Decimal.value, Decimal.signed, hvalue, Option.map_some]

theorem exactDoubles_format : FormatsDoubles exactDoubles := by
  have hnumber : FormatsNumbers exactDoubles := fun x _ => wholeDoubles_formats x rfl
  refine ⟨hnumber, fun x hx => ?_⟩
  have hfloat := pyFloat_number (Json.isNumber_chars (hnumber x hx))
  rw [String.ofList_toList] at hfloat
  rw [hfloat]
  have hlt : x.natAbs < 2 ^ 53 := of_decide_eq_true hx
  cases x with
  | ofNat n =>
    have hvalue : Decimal.value (exactDoubles.format (Int.ofNat n)).toList = some (n : ℚ) :=
      value_toString n
    rw [hvalue]
    exact Binary64.round_natCast_isSome hlt (by decide)
  | negSucc n =>
    have htext : (exactDoubles.format (Int.negSucc n)).toList = '-' :: (toString (n + 1)).toList :=
      String.toList_append
    rw [htext, value_minus_toString, Option.bind_some, Binary64.round_neg_isSome]
    exact Binary64.round_natCast_isSome hlt (by decide)

/-- A benchmark with one epoch that took the given time. -/
def singleEpoch (name : String) (ns : Int) : BenchReportRow Int where
  c := some { name }
  result :=
    { epochs := 1, itersPerEpoch := 1, totalIters := 1, worstNs := ns, medianNs := ns, meanNs := ns
      p05Ns := ns, p95Ns := ns, totalTimeS := 0, warmupTimeS := 0, wallTimeS := 0
      calibrationTimeS := 0, calibrationIters := 0 }

def benchmarkNamed (name : String) : Measurements Int where
  benchRows := [singleEpoch name 5]
  jitterRows := [singleSample "fast" 5]
  opt := { jitterBins := 10, minEpochTimeS := 0, minTotalTimeS := 0, maxTotalTimeS := 1 }

theorem benchmarkNamed_sized (name : String) : (benchmarkNamed name).Sized := by
  constructor
  · simp [benchmarkNamed, shownRows, singleEpoch]
  · simp [benchmarkNamed, shownRows, singleSample]

theorem numeric_benchmark_differs :
    ¬LoadsAlike exactDoubles (fun _ => "") (benchmarkNamed "7") := by
  rw [loadsAlike_iff_notNumeric exactDoubles_format _ (benchmarkNamed_sized "7")
    (summaryCases_keys_nodup (by simp [benchmarkNamed, shownRows, singleEpoch])
      (by simp [benchmarkNamed, shownRows, singleSample]))]
  intro h
  have hnumeric := (h _ List.mem_cons_self).1
  exact absurd hnumeric (by decide +kernel)

theorem named_benchmark_agrees :
    LoadsAlike exactDoubles (fun _ => "") (benchmarkNamed "7\" fast") :=
  (reports_load_alike_iff exactDoubles_format _ (benchmarkNamed_sized _)
    (by simp [benchmarkNamed, shownRows, singleEpoch])
    (by simp [benchmarkNamed, shownRows, singleSample])).mpr (by decide +kernel)

end Gentest.Report
