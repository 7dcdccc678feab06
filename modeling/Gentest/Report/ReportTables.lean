import Mathlib.Algebra.GroupWithZero.Nat

/-!
# The tables of a measured report

A report is a list of tables, and a machine-readable report shows the machine
rows of each: named fields, each a text with its type. The builders compute
the fields from what was measured.

The measurements are values of `double`. Nothing here depends on how its
operations round, so they are a parameter, and so is the library's
`{:.17g}` format.
-/

namespace Gentest.Report

/-- The operations on `double` that the reports use. -/
structure Doubles (F : Type) where
  ofNat : Nat → F
  add : F → F → F
  sub : F → F → F
  mul : F → F → F
  div : F → F → F
  lt : F → F → Bool
  le : F → F → Bool
  eq : F → F → Bool
  /-- `static_cast<int>`. -/
  toInt : F → Int
  isFinite : F → Bool
  /-- `fmt::format("{:.17g}", value)`. -/
  format : F → String

/-- The `double` values that are whole numbers small enough to be exact. The
division is the one of `double` where it leaves no remainder. -/
def wholeDoubles : Doubles Int where
  ofNat := Int.ofNat
  add := (· + ·)
  sub := (· - ·)
  mul := (· * ·)
  div := (· / ·)
  lt := fun a b => a < b
  le := fun a b => a ≤ b
  eq := fun a b => a == b
  toInt := id
  isFinite := fun _ => true
  format := toString

-- ---------------------------------------------------------------------------
-- Measurements
-- ---------------------------------------------------------------------------

/-- The part of a registered case the reports read. -/
structure Case where
  name : String
  suite : String := ""
  isBaseline : Bool := false
  itemsPerCall : Nat := 1
  deriving DecidableEq, Repr

structure BenchResult (F : Type) where
  epochs : Nat
  itersPerEpoch : Nat
  totalIters : Nat
  worstNs : F
  medianNs : F
  meanNs : F
  p05Ns : F
  p95Ns : F
  totalTimeS : F
  warmupTimeS : F
  wallTimeS : F
  calibrationTimeS : F
  calibrationIters : Nat

structure HistogramBin (F : Type) where
  lo : F
  hi : F
  count : Nat
  percent : F
  cumulativePercent : F
  inclusiveHi : Bool

structure JitterResult (F : Type) where
  itersPerEpoch : Nat
  batchMode : Bool
  minNs : F
  maxNs : F
  medianNs : F
  meanNs : F
  stddevNs : F
  p05Ns : F
  p95Ns : F
  overheadMeanNs : F
  overheadSdNs : F
  overheadRatioPct : F
  totalTimeS : F
  warmupTimeS : F
  wallTimeS : F
  histogramBins : Int
  histogram : List (HistogramBin F)
  samplesNs : List F

structure ReportRow (R : Type) where
  c : Option Case
  result : R

abbrev BenchReportRow (F : Type) := ReportRow (BenchResult F)

abbrev JitterReportRow (F : Type) := ReportRow (JitterResult F)

structure MeasuredReportIssue where
  name : String
  file : String
  line : Nat := 0
  message : String
  infrastructure : Bool := false
  deriving DecidableEq, Repr

structure CliOptions (F : Type) where
  jitterBins : Int
  minEpochTimeS : F
  minTotalTimeS : F
  maxTotalTimeS : F

-- ---------------------------------------------------------------------------
-- Machine rows
-- ---------------------------------------------------------------------------

inductive MachineValueKind
  | string
  | number
  | bool
  | null
  deriving DecidableEq, Repr

structure MachineField where
  key : String
  value : String := ""
  kind : MachineValueKind := .string
  deriving DecidableEq, Repr

/-- The display columns of a table are not part of the machine formats. -/
structure ReportTable where
  title : String
  id : String
  report : String
  machineRows : List (List MachineField) := []
  deriving DecidableEq, Repr

/-- A table without id goes by its title, in both machine formats. -/
def ReportTable.tableId (t : ReportTable) : String := if t.id.isEmpty then t.title else t.id

def ReportTable.reportName (t : ReportTable) : String :=
  if t.report.isEmpty then "measured" else t.report

def machineString (key value : String) : MachineField := { key, value, kind := .string }

def machineCount (key : String) (value : Nat) : MachineField :=
  { key, value := toString value, kind := .number }

def machineBool (key : String) (value : Bool) : MachineField :=
  { key, value := if value then "true" else "false", kind := .bool }

def machineNull (key : String) : MachineField := { key, kind := .null }

variable {F : Type} (d : Doubles F)

def formatMachineNumber (value : F) : String :=
  if !d.isFinite value then "" else d.format value

def machineNumber (key : String) (value : F) : MachineField :=
  let text := formatMachineNumber d value
  if text.isEmpty then machineNull key else { key, value := text, kind := .number }

def machineOptionalPct (key : String) (present : Bool) (value : F) : MachineField :=
  if present then machineNumber d key value else machineNull key

-- ---------------------------------------------------------------------------
-- Builders
-- ---------------------------------------------------------------------------

def Case.items (c : Case) : Nat := if c.itemsPerCall = 0 then 1 else c.itemsPerCall

def perItemNs (nsPerCall : F) (c : Case) : F := d.div nsPerCall (d.ofNat c.items)

/-- `value > 0.0`. -/
def positive (value : F) : Bool := d.lt (d.ofNat 0) value

/-- The first baseline case of a suite sets its baseline. -/
def baselineOf {R : Type} (rows : List (ReportRow R)) (value : R → F) (suite : String) : F :=
  let baselines := rows.filterMap fun row =>
    row.c.bind fun c =>
      if c.isBaseline && c.suite == suite then some (perItemNs d (value row.result) c) else none
  baselines.headD (d.ofNat 0)

def deltaPct (value base : F) : F :=
  if positive d base then d.mul (d.div (d.sub value base) base) (d.ofNat 100) else d.ofNat 0

def shownRows {R : Type} (rows : List (ReportRow R)) : List (Case × R) :=
  rows.filterMap fun row => row.c.map fun c => (c, row.result)

def benchSummaryRow (rows : List (BenchReportRow F)) (c : Case) (r : BenchResult F) :
    List MachineField :=
  let base := baselineOf d rows BenchResult.medianNs c.suite
  let median := perItemNs d r.medianNs c
  [machineString "benchmark" c.name,
    machineString "suite" c.suite,
    machineBool "is_baseline" c.isBaseline,
    machineCount "samples" r.epochs,
    machineCount "iters_per_epoch" r.itersPerEpoch,
    machineCount "items_per_call" c.items,
    machineNumber d "median_ns_per_item" median,
    machineNumber d "mean_ns_per_item" (perItemNs d r.meanNs c),
    machineNumber d "p05_ns_per_item" (perItemNs d r.p05Ns c),
    machineNumber d "p95_ns_per_item" (perItemNs d r.p95Ns c),
    machineNumber d "worst_ns_per_item" (perItemNs d r.worstNs c),
    machineNumber d "wall_time_s" r.wallTimeS,
    machineOptionalPct d "baseline_delta_pct" (positive d base) (deltaPct d median base)]

def benchCallsPerSec (r : BenchResult F) : F :=
  if d.le r.totalTimeS (d.ofNat 0) || r.totalIters == 0 then d.ofNat 0
  else d.div (d.ofNat r.totalIters) r.totalTimeS

def benchDebugRow (opt : CliOptions F) (c : Case) (r : BenchResult F) : List MachineField :=
  let callsPerSec := benchCallsPerSec d r
  [machineString "benchmark" c.name,
    machineString "suite" c.suite,
    machineCount "epochs" r.epochs,
    machineCount "iters_per_epoch" r.itersPerEpoch,
    machineCount "items_per_call" c.items,
    machineCount "total_calls" r.totalIters,
    machineNumber d "total_items" (d.mul (d.ofNat r.totalIters) (d.ofNat c.items)),
    machineNumber d "measured_time_s" r.totalTimeS,
    machineNumber d "wall_time_s" r.wallTimeS,
    machineNumber d "warmup_time_s" r.warmupTimeS,
    machineCount "calibration_iters" r.calibrationIters,
    machineNumber d "calibration_time_s" r.calibrationTimeS,
    machineNumber d "min_epoch_time_s" opt.minEpochTimeS,
    machineNumber d "min_total_time_s" opt.minTotalTimeS,
    machineNumber d "max_total_time_s" opt.maxTotalTimeS,
    machineNumber d "calls_per_sec" callsPerSec,
    machineNumber d "items_per_sec" (d.mul callsPerSec (d.ofNat c.items))]

def buildBenchReportTables (rows : List (BenchReportRow F)) (opt : CliOptions F) :
    List ReportTable :=
  [{ title := "Benchmarks", id := "bench.summary", report := "bench"
     machineRows := (shownRows rows).map fun row => benchSummaryRow d rows row.1 row.2 },
    { title := "Bench debug", id := "bench.debug", report := "bench"
      machineRows := (shownRows rows).map fun row => benchDebugRow d opt row.1 row.2 }]

def jitterSummaryRow (rows : List (JitterReportRow F)) (c : Case) (r : JitterResult F) :
    List MachineField :=
  let baseMedian := baselineOf d rows JitterResult.medianNs c.suite
  let baseSd := baselineOf d rows JitterResult.stddevNs c.suite
  let median := perItemNs d r.medianNs c
  let sd := perItemNs d r.stddevNs c
  [machineString "benchmark" c.name,
    machineString "suite" c.suite,
    machineBool "is_baseline" c.isBaseline,
    machineCount "samples" r.samplesNs.length,
    machineCount "items_per_call" c.items,
    machineNumber d "median_ns_per_item" median,
    machineNumber d "mean_ns_per_item" (perItemNs d r.meanNs c),
    machineNumber d "stddev_ns_per_item" sd,
    machineNumber d "p05_ns_per_item" (perItemNs d r.p05Ns c),
    machineNumber d "p95_ns_per_item" (perItemNs d r.p95Ns c),
    machineNumber d "min_ns_per_item" (perItemNs d r.minNs c),
    machineNumber d "max_ns_per_item" (perItemNs d r.maxNs c),
    machineNumber d "wall_time_s" r.wallTimeS,
    machineOptionalPct d "baseline_delta_pct" (positive d baseMedian) (deltaPct d median baseMedian),
    machineOptionalPct d "baseline_stddev_delta_pct" (positive d baseSd) (deltaPct d sd baseSd)]

def jitterDebugRow (opt : CliOptions F) (c : Case) (r : JitterResult F) : List MachineField :=
  [machineString "benchmark" c.name,
    machineString "suite" c.suite,
    machineString "mode" (if r.batchMode then "batch" else "per-call"),
    machineBool "batch_mode" r.batchMode,
    machineCount "samples" r.samplesNs.length,
    machineCount "iters_per_epoch" r.itersPerEpoch,
    machineCount "items_per_call" c.items,
    machineNumber d "overhead_mean_ns_per_call" r.overheadMeanNs,
    machineNumber d "overhead_sd_ns_per_call" r.overheadSdNs,
    machineNumber d "overhead_ratio_pct" r.overheadRatioPct,
    machineNumber d "measured_time_s" r.totalTimeS,
    machineNumber d "warmup_time_s" r.warmupTimeS,
    machineNumber d "min_total_time_s" opt.minTotalTimeS,
    machineNumber d "max_total_time_s" opt.maxTotalTimeS,
    machineNumber d "wall_time_s" r.wallTimeS]

/-- `static_cast<double>(count) / total * 100.0`. -/
def percentOf (count total : Nat) : F :=
  if positive d (d.ofNat total) then
    d.mul (d.div (d.ofNat count) (d.ofNat total)) (d.ofNat 100)
  else d.ofNat 0

/-- The bin a sample falls in; offsets outside the range go to the ends. -/
def histogramIndex (minV width : F) (histBins : Nat) (v : F) : Nat :=
  if histBins > 1 then
    let idx := d.toInt (d.div (d.sub v minV) width)
    if idx < 0 then 0 else if (histBins : Int) ≤ idx then histBins - 1 else idx.toNat
  else 0

def computeHistogram (samples : List F) (bins : Int) : List (HistogramBin F) :=
  match samples with
  | [] => []
  | first :: rest =>
    let safeBins := if bins > 0 then bins.toNat else 1
    let minV := rest.foldl (fun m v => if d.lt v m then v else m) first
    let maxV := rest.foldl (fun m v => if d.lt m v then v else m) first
    let histBins := if d.eq minV maxV then 1 else safeBins
    let width :=
      if histBins = 1 then d.ofNat 0 else d.div (d.sub maxV minV) (d.ofNat histBins)
    let edge := fun i => d.add minV (d.mul width (d.ofNat i))
    let count := fun i => samples.countP fun v => histogramIndex d minV width histBins v == i
    (List.range histBins).map fun i =>
      { lo := if histBins = 1 then minV else edge i
        hi := if histBins = 1 ∨ i + 1 = histBins then maxV else edge (i + 1)
        count := count i
        percent := percentOf d (count i) samples.length
        cumulativePercent := percentOf d ((List.range (i + 1)).map count).sum samples.length
        inclusiveHi := i + 1 == histBins }

def selectJitterHistogram (r : JitterResult F) (bins : Int) : List (HistogramBin F) :=
  if r.histogramBins = bins then r.histogram else computeHistogram d r.samplesNs bins

def perItemHistogramBins (bins : List (HistogramBin F)) (itemsPerCall : Nat) :
    List (HistogramBin F) :=
  let divisor := d.ofNat (if itemsPerCall = 0 then 1 else itemsPerCall)
  bins.map fun bin => { bin with lo := d.div bin.lo divisor, hi := d.div bin.hi divisor }

def histogramRow (c : Case) (total cumulative i : Nat) (bin : HistogramBin F) :
    List MachineField :=
  [machineString "benchmark" c.name,
    machineString "suite" c.suite,
    machineCount "bin" (i + 1),
    machineNumber d "range_lo_ns_per_item" bin.lo,
    machineNumber d "range_hi_ns_per_item" bin.hi,
    machineBool "inclusive_hi" bin.inclusiveHi,
    machineCount "count" bin.count,
    machineNumber d "percent" (percentOf d bin.count total),
    machineNumber d "cumulative_percent" (percentOf d cumulative total)]

def histogramTable (opt : CliOptions F) (c : Case) (r : JitterResult F) : ReportTable :=
  let bins := perItemHistogramBins d (selectJitterHistogram d r opt.jitterBins) c.items
  { title := "Jitter histogram (bins=" ++ toString opt.jitterBins ++ ", name=" ++ c.name ++ ")"
    id := "jitter.histogram"
    report := "jitter"
    machineRows := bins.zipIdx.map fun bin =>
      let cumulative := ((bins.take (bin.2 + 1)).map HistogramBin.count).sum
      histogramRow d c r.samplesNs.length cumulative bin.2 bin.1 }

def buildJitterReportTables (rows : List (JitterReportRow F)) (opt : CliOptions F) :
    List ReportTable :=
  [{ title := "Jitter summary", id := "jitter.summary", report := "jitter"
     machineRows := (shownRows rows).map fun row => jitterSummaryRow d rows row.1 row.2 },
    { title := "Jitter debug", id := "jitter.debug", report := "jitter"
      machineRows := (shownRows rows).map fun row => jitterDebugRow d opt row.1 row.2 }] ++
    (shownRows rows).map fun row => histogramTable d opt row.1 row.2

structure Measurements (F : Type) where
  benchRows : List (BenchReportRow F)
  jitterRows : List (JitterReportRow F)
  opt : CliOptions F
  issues : List MeasuredReportIssue := []
  includeBenchReport : Bool := false
  includeJitterReport : Bool := false

def Measurements.includesBench (m : Measurements F) : Bool :=
  m.includeBenchReport || !m.benchRows.isEmpty

def Measurements.includesJitter (m : Measurements F) : Bool :=
  m.includeJitterReport || !m.jitterRows.isEmpty

/-- The tables `print_measured_report` prints. -/
def Measurements.tables (m : Measurements F) : List ReportTable :=
  (if m.includesBench then buildBenchReportTables d m.benchRows m.opt else []) ++
    (if m.includesJitter then buildJitterReportTables d m.jitterRows m.opt else [])

def Measurements.reportName (m : Measurements F) : String :=
  if m.includesBench && !m.includesJitter then "bench"
  else if !m.includesBench && m.includesJitter then "jitter"
  else "measured"

end Gentest.Report
