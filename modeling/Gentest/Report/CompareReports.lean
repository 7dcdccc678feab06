import Gentest.Lib.Decimal
import Gentest.Report.CsvReport
import Gentest.Report.JsonReport
import Mathlib.Data.List.DropRight

/-!
# Loading measured reports for a comparison

The comparison script takes a saved report in either format and makes the same
dictionary of it: for every summary row the suite and the fields that are
numbers. The two loaders find out in different ways which fields these are. A
CSV cell is a number when its record says so; a JSON value is one when it
converts to a finite `float`, and text converts too.

A dictionary is a function here, since no reader depends on its order, and a
`float` is its value.
-/

namespace Gentest.Report

-- ---------------------------------------------------------------------------
-- float
-- ---------------------------------------------------------------------------

/-- The zeros of the decimal digits beyond ASCII, in Unicode 14. The other
digits follow each of them. -/
def decimalZeros : List Nat :=
  [0x660, 0x6f0, 0x7c0, 0x966, 0x9e6, 0xa66, 0xae6, 0xb66, 0xbe6, 0xc66, 0xce6, 0xd66, 0xde6,
    0xe50, 0xed0, 0xf20, 0x1040, 0x1090, 0x17e0, 0x1810, 0x1946, 0x19d0, 0x1a80, 0x1a90, 0x1b50,
    0x1bb0, 0x1c40, 0x1c50, 0xa620, 0xa8d0, 0xa900, 0xa9d0, 0xa9f0, 0xaa50, 0xabf0, 0xff10,
    0x104a0, 0x10d30, 0x11066, 0x110f0, 0x11136, 0x111d0, 0x112f0, 0x11450, 0x114d0, 0x11650,
    0x116c0, 0x11730, 0x118e0, 0x11950, 0x11c50, 0x11d50, 0x11da0, 0x16a60, 0x16ac0, 0x16b50,
    0x1d7ce, 0x1d7d8, 0x1d7e2, 0x1d7ec, 0x1d7f6, 0x1e140, 0x1e2f0, 0x1e950, 0x1fbf0]

def isUnicodeSpace (c : Char) : Bool :=
  [0x85, 0xa0, 0x1680, 0x2028, 0x2029, 0x202f, 0x205f, 0x3000].contains c.toNat ||
    (0x2000 ≤ c.toNat && c.toNat ≤ 0x200a)

/-- Spaces and decimal digits beyond ASCII stand for those of ASCII; any other
character there is none that a number can have. -/
def toAscii (c : Char) : Char :=
  if c.toNat < 127 then c
  else if isUnicodeSpace c then ' '
  else
    match decimalZeros.find? fun first => first ≤ c.toNat && c.toNat < first + 10 with
    | some first => Char.ofNat ('0'.toNat + (c.toNat - first))
    | none => '?'

def isAsciiSpace (c : Char) : Bool := c == ' ' || (9 ≤ c.toNat && c.toNat ≤ 13)

def strip (text : List Char) : List Char :=
  (text.dropWhile isAsciiSpace).rdropWhile isAsciiSpace

/-- Every underscore stands between two digits. -/
def underscoresSeparate (prev : Char) : List Char → Bool
  | [] => prev != '_'
  | c :: text =>
    (if c == '_' then prev.isDigit else prev != '_' || c.isDigit) && underscoresSeparate c text

/-- `float(text)`, or `none` where it raises or is not finite. -/
def pyFloat (text : String) : Option ℚ :=
  let text := strip (text.toList.map toAscii)
  if underscoresSeparate '\x00' text then
    (Decimal.value (text.filter (· != '_'))).bind Binary64.round
  else none

-- ---------------------------------------------------------------------------
-- Cases
-- ---------------------------------------------------------------------------

structure CaseKey where
  kind : String
  name : String
  deriving DecidableEq, Repr

abbrev Metrics := String → Option ℚ

structure CaseMetrics where
  suite : String
  metrics : Metrics

abbrev Cases := CaseKey → Option CaseMetrics

inductive LoadError
  | unreadable
  | root
  | tables
  | header
  | malformedRecord
  | duplicate (key : CaseKey)
  /-- An `int` that is too large for `float`. -/
  | overflow
  deriving DecidableEq, Repr

def intValue : List Char → Int
  | '-' :: digits => -(Decimal.digitsValue digits : Int)
  | digits => Decimal.digitsValue digits

/-- A number with a fraction or an exponent is read as `float`, another one as
`int`. -/
def isFloatLiteral (text : List Char) : Bool := text.any (['.', 'e', 'E'].contains ·)

def asFloat : Json → Except LoadError (Option ℚ)
  | .bool _ | .null => .ok none
  | .num text =>
    if isFloatLiteral text then .ok (pyFloat (String.ofList text))
    else
      match Binary64.round (intValue text) with
      | some number => .ok (some number)
      | none => .error .overflow
  | .str s => .ok (pyFloat (String.ofList s))
  | .arr _ | .obj _ => .ok none

def caseKind (report tableId : String) : String :=
  if !report.isEmpty then report
  else if tableId.toList.contains '.' then String.ofList (tableId.toList.takeWhile (· != '.'))
  else "measured"

def isSummary (tableId : String) : Bool := ".summary".toList.isSuffixOf tableId.toList

def addCase (cases : Cases) (key : CaseKey) (metrics : CaseMetrics) : Except LoadError Cases :=
  if (cases key).isSome then .error (.duplicate key)
  else .ok (Function.update cases key (some metrics))

def addMetric (metrics : Metrics) (field : String) (value : Json) : Except LoadError Metrics := do
  match ← asFloat value with
  | some number => return Function.update metrics field (some number)
  | none => return metrics

-- ---------------------------------------------------------------------------
-- The JSON report
-- ---------------------------------------------------------------------------

section Json

-- `str` of a value that is not a string.
variable (repr : Json → String)

def pyStr : Json → String
  | .str s => String.ofList s
  | j => repr j

def pyDict (members : List (List Char × Json)) : List (String × Json) :=
  Grouping.last (members.map fun member => (String.ofList member.1, member.2))

def addJsonRow (kind : String) (cases : Cases) : Json → Except LoadError Cases
  | .obj members => do
    let row := pyDict members
    match row.lookup "benchmark" with
    | none => return cases
    | some benchmark =>
      let suite := pyStr repr ((row.lookup "suite").getD (.str []))
      let metrics ← row.foldlM (fun metrics item => addMetric metrics item.1 item.2) fun _ => none
      addCase cases ⟨kind, pyStr repr benchmark⟩ ⟨suite, metrics⟩
  | _ => return cases

def addJsonTable (payload : List (String × Json)) (cases : Cases) : Json → Except LoadError Cases
  | .obj members =>
    let table := pyDict members
    let tableId := pyStr repr ((table.lookup "id").getD (.str []))
    if !isSummary tableId then .ok cases
    else
      match table.lookup "rows" with
      | some (.arr rows) =>
        let report := (table.lookup "report").getD ((payload.lookup "report").getD (.str []))
        rows.foldlM (addJsonRow repr (caseKind (pyStr repr report) tableId)) cases
      | _ => .ok cases
  | _ => .ok cases

def loadJsonReport (payload : List (String × Json)) : Except LoadError Cases :=
  match payload.lookup "tables" with
  | some (.arr tables) => tables.foldlM (addJsonTable repr payload) fun _ => none
  | _ => .error .tables

/-- `load_report` on a text that starts with a brace. -/
def loadJson (text : List Char) : Except LoadError Cases :=
  match Json.read text with
  | some (.obj members) => loadJsonReport repr (pyDict members)
  | some _ => .error .root
  | none => .error .unreadable

end Json

-- ---------------------------------------------------------------------------
-- The CSV report
-- ---------------------------------------------------------------------------

def csvEntry (record : List String) : Except LoadError (RowKey × RowField) :=
  match rowEntry record with
  | some entry => .ok entry
  | none => .error .malformedRecord

def addCsvMetric (metrics : Metrics) (field type value : String) : Except LoadError Metrics :=
  if type ≠ "number" then .ok metrics else addMetric metrics field (.str value.toList)

def addCsvRow (cases : Cases) (group : RowKey × List RowField) : Except LoadError Cases := do
  let fields := Grouping.last group.2
  match fields.lookup "benchmark" with
  | none => return cases
  | some benchmark =>
    let suite := ((fields.lookup "suite").getD ("", "")).2
    let metrics ← fields.foldlM
      (fun metrics field => addCsvMetric metrics field.1 field.2.1 field.2.2) fun _ => none
    addCase cases ⟨caseKind group.1.1 group.1.2.1, benchmark.2⟩ ⟨suite, metrics⟩

/-- A blank line is a record with one empty cell here; `DictReader` goes over
those. -/
def loadCsvReport (text : List Char) : Except LoadError Cases := do
  match (Csv.read csvMarks text).map (·.map (·.map String.ofList)) with
  | none => throw .unreadable
  | some [] => throw .header
  | some (header :: records) =>
    if header ≠ csvHeader then throw .header
    let entries ← (records.filter (· ≠ [""])).mapM csvEntry
    let grouped := Grouping.groups (entries.filter fun entry => isSummary entry.1.2.1)
    grouped.foldlM addCsvRow fun _ => none

-- ---------------------------------------------------------------------------
-- Numbers
-- ---------------------------------------------------------------------------

theorem isNumberChar_plain {c : Char} (h : Json.isNumberChar c = true) :
    toAscii c = c ∧ isAsciiSpace c = false ∧ c ≠ '_' := by
  simp only [Json.isNumberChar, Bool.or_eq_true, List.contains_eq_mem, List.mem_cons,
    List.not_mem_nil, or_false, decide_eq_true_eq] at h
  rcases h with h | rfl | rfl | rfl | rfl | rfl
  · have hrange : 48 ≤ c.toNat ∧ c.toNat ≤ 57 := Char.isDigit_iff_toNat.mp h
    refine ⟨?_, ?_, ?_⟩
    · simp [toAscii, show c.toNat < 127 by omega]
    · have hspace : c ≠ ' ' := by
        rintro rfl
        exact absurd h (by decide)
      simp [isAsciiSpace, hspace]
      omega
    · rintro rfl
      exact absurd h (by decide)
  all_goals decide

theorem underscoresSeparate_plain {text : List Char} (prev : Char) (hprev : prev ≠ '_')
    (h : ∀ c ∈ text, c ≠ '_') : underscoresSeparate prev text = true := by
  induction text generalizing prev with
  | nil => simp [underscoresSeparate, hprev]
  | cons c text ih =>
    have hc := h c List.mem_cons_self
    simp [underscoresSeparate, hc, hprev, ih c hc fun c hc => h c (List.mem_cons_of_mem _ hc)]

theorem strip_plain {text : List Char} (h : ∀ c ∈ text, isAsciiSpace c = false) :
    strip text = text := by
  have hdrop : text.dropWhile isAsciiSpace = text := by
    cases text with
    | nil => rfl
    | cons c text => simp [h c List.mem_cons_self]
  rw [strip, hdrop, List.rdropWhile_eq_self_iff]
  intro hne
  simp [h _ (List.getLast_mem hne)]

theorem pyFloat_number {text : List Char} (h : ∀ c ∈ text, Json.isNumberChar c = true) :
    pyFloat (String.ofList text) = (Decimal.value text).bind Binary64.round := by
  have hascii : text.map toAscii = text := by
    conv_rhs => rw [← List.map_id text]
    exact List.map_congr_left fun c hc => (isNumberChar_plain (h c hc)).1
  have hstrip : strip text = text := strip_plain fun c hc => (isNumberChar_plain (h c hc)).2.1
  have hunderscores := underscoresSeparate_plain '\x00' (by decide)
    fun c hc => (isNumberChar_plain (h c hc)).2.2
  have hfilter : text.filter (· != '_') = text := by
    rw [List.filter_eq_self]
    exact fun c hc => by simp [(isNumberChar_plain (h c hc)).2.2]
  simp only [pyFloat, String.toList_ofList, hascii, hstrip, hunderscores, hfilter, if_true]

/-- A number that is no `float` literal has digits and maybe a minus. -/
theorem value_of_int {text : List Char} (h : Json.isNumber text = true)
    (hint : isFloatLiteral text = false) : Decimal.value text = some (intValue text : ℚ) := by
  have hunsigned : ∀ text : List Char, Json.isUnsigned text = true →
      isFloatLiteral text = false → text ≠ [] ∧ ∀ c ∈ text, c.isDigit = true := by
    intro text h hint
    simp only [Json.isUnsigned, Bool.and_eq_true] at h
    obtain ⟨⟨hint', -⟩, hfrac⟩ := h
    have hmem : ∀ c ∈ text.dropWhile Char.isDigit, c ∈ text := fun c hc =>
      (List.dropWhile_suffix _).subset hc
    have hnone : ∀ c ∈ text, c ≠ '.' ∧ c ≠ 'e' ∧ c ≠ 'E' := by
      simpa [isFloatLiteral] using hint
    have hrest : text.dropWhile Char.isDigit = [] := by
      revert hfrac hmem
      generalize text.dropWhile Char.isDigit = rest
      intro hfrac hmem
      cases rest with
      | nil => rfl
      | cons c rest =>
        have hc := hnone c (hmem c List.mem_cons_self)
        rw [Json.isFraction] at hfrac
        · simp [Json.isExponent, hc.2.1, hc.2.2] at hfrac
        · exact fun rest' heq => hc.1 (List.cons.inj heq).1
    refine ⟨?_, List.dropWhile_eq_nil_iff.mp hrest⟩
    rintro rfl
    simp at hint'
  unfold Json.isNumber at h
  split at h
  · rename_i digits
    have hdigits := hunsigned digits h (by simpa [isFloatLiteral] using hint)
    rw [Decimal.value, Decimal.signed, Decimal.unsigned_digits hdigits.1 hdigits.2]
    simp [intValue]
  · rename_i hminus
    have hdigits := hunsigned text h hint
    rw [Decimal.value, Decimal.signed_digits hdigits.2,
      Decimal.unsigned_digits hdigits.1 hdigits.2]
    have hvalue : intValue text = Decimal.digitsValue text := by
      unfold intValue
      split
      · exact absurd rfl (hminus _)
      · rfl
    rw [hvalue]
    simp

/-- A number that has a finite value is read alike as a number and as text. -/
theorem asFloat_num {text : List Char} (h : Json.isNumber text = true)
    (hfinite : (pyFloat (String.ofList text)).isSome) :
    asFloat (.num text) = .ok (pyFloat (String.ofList text)) := by
  rw [asFloat]
  split
  · rfl
  · rename_i hint
    have hvalue : pyFloat (String.ofList text) = Binary64.round (intValue text) := by
      rw [pyFloat_number (Json.isNumber_chars h), value_of_int h (by simpa using hint),
        Option.bind_some]
    rw [hvalue] at hfinite ⊢
    obtain ⟨number, hnumber⟩ := Option.isSome_iff_exists.mp hfinite
    simp [hnumber]

-- ---------------------------------------------------------------------------
-- Rows
-- ---------------------------------------------------------------------------

/-- A field that claims to be a number is one, and finite. -/
def MachineField.Finite (field : MachineField) : Prop :=
  field.kind = .number → Json.isNumber field.value.toList = true ∧ (pyFloat field.value).isSome

/-- What each loader takes for the number of a field. -/
def jsonNumber (field : MachineField) : Option ℚ :=
  match field.kind with
  | .string | .number => pyFloat field.value
  | .bool | .null => none

def csvNumber (field : MachineField) : Option ℚ :=
  if field.kind = .number then pyFloat field.value else none

def metricsOf (number : MachineField → Option ℚ) (row : List MachineField) : Metrics :=
  Grouping.fill (fun _ => none) (row.filterMap fun field => (number field).map (field.key, ·))

theorem foldlM_ok {α β ε : Type} {f : β → α → Except ε β} {g : β → α → β} {l : List α}
    (h : ∀ a ∈ l, ∀ b, f b a = .ok (g b a)) (b : β) : l.foldlM f b = .ok (l.foldl g b) := by
  induction l generalizing b with
  | nil => rfl
  | cons a l ih =>
    rw [List.foldlM_cons, h a List.mem_cons_self b, List.foldl_cons]
    exact ih (fun a ha => h a (List.mem_cons_of_mem _ ha)) (g b a)

theorem foldlM_congr {α β ε : Type} {f g : β → α → Except ε β} {l : List α}
    (h : ∀ a ∈ l, ∀ b, f b a = g b a) (b : β) : l.foldlM f b = l.foldlM g b := by
  induction l generalizing b with
  | nil => rfl
  | cons a l ih =>
    rw [List.foldlM_cons, List.foldlM_cons, h a List.mem_cons_self b]
    exact congrArg _ (funext (ih fun a ha => h a (List.mem_cons_of_mem _ ha)))

theorem asFloat_fieldJson {field : MachineField} (h : field.Finite) :
    asFloat (fieldJson field) = .ok (jsonNumber field) := by
  obtain ⟨key, value, kind⟩ := field
  cases kind with
  | string => simp [fieldJson, asFloat, jsonNumber]
  | number =>
    have hnumber := h rfl
    rw [fieldJson, asFloat_num hnumber.1 (by simpa using hnumber.2)]
    simp [jsonNumber]
  | bool => rfl
  | null => rfl

theorem numbers_sublist (number : MachineField → Option ℚ) (row : List MachineField) :
    ((row.filterMap fun field => (number field).map (field.key, ·)).map Prod.fst).Sublist
      (row.map MachineField.key) := by
  induction row with
  | nil => exact List.Sublist.refl _
  | cons field row ih =>
    cases hnumber : number field with
    | none => simpa [hnumber] using ih.cons _
    | some x => simpa [hnumber] using ih

theorem metricsOf_apply {row : List MachineField} (number : MachineField → Option ℚ)
    (hkeys : (row.map MachineField.key).Nodup) {field : MachineField} (hfield : field ∈ row) :
    metricsOf number row field.key = number field := by
  refine Option.ext fun a => ?_
  rw [metricsOf, Grouping.fill_mem ((numbers_sublist number row).nodup hkeys), List.mem_filterMap]
  constructor
  · rintro ⟨other, hother, heq⟩
    obtain ⟨b, hb, heq⟩ := Option.map_eq_some_iff.mp heq
    obtain ⟨hkey, rfl⟩ := Prod.mk.inj heq
    obtain rfl := List.inj_on_of_nodup_map hkeys hother hfield hkey
    exact hb
  · intro ha
    exact ⟨field, hfield, by simp [ha]⟩

theorem metricsOf_inj {row : List MachineField} {number number' : MachineField → Option ℚ}
    (hkeys : (row.map MachineField.key).Nodup) :
    metricsOf number row = metricsOf number' row ↔ ∀ field ∈ row, number field = number' field := by
  constructor
  · intro h field hfield
    rw [← metricsOf_apply number hkeys hfield, h, metricsOf_apply number' hkeys hfield]
  · intro h
    have hentries : (row.filterMap fun field => (number field).map (field.key, ·)) =
        row.filterMap fun field => (number' field).map (field.key, ·) :=
      List.filterMap_congr fun field hfield => by rw [h field hfield]
    rw [metricsOf, metricsOf, hentries]

/-- The fields of a summary row: the name of its case, the suite, and fields
that are not text. -/
structure SummaryRow (c : Case) (row : List MachineField) : Prop where
  fields : ∃ rest, row = machineString "benchmark" c.name :: machineString "suite" c.suite :: rest ∧
    ∀ field ∈ rest, field.kind ≠ .string
  keys : (row.map MachineField.key).Nodup
  finite : ∀ field ∈ row, field.Finite

variable {c : Case} {row : List MachineField}

theorem SummaryRow.metrics_alike_iff (h : SummaryRow c row) :
    metricsOf jsonNumber row = metricsOf csvNumber row ↔
      pyFloat c.name = none ∧ pyFloat c.suite = none := by
  obtain ⟨rest, rfl, hrest⟩ := h.fields
  have halike : ∀ field ∈ rest, jsonNumber field = csvNumber field := by
    intro field hfield
    have hkind := hrest field hfield
    unfold jsonNumber csvNumber
    cases hk : field.kind with
    | string => exact absurd hk hkind
    | number | bool | null => simp
  have hstring : ∀ key value, jsonNumber (machineString key value) = pyFloat value ∧
      csvNumber (machineString key value) = none := fun _ _ => ⟨rfl, rfl⟩
  rw [metricsOf_inj h.keys, List.forall_mem_cons, List.forall_mem_cons, (hstring ..).1,
    (hstring ..).2, (hstring ..).1, (hstring ..).2]
  exact ⟨fun h => ⟨h.1, h.2.1⟩, fun h => ⟨h.1, h.2, halike⟩⟩

theorem pyDict_row (hkeys : (row.map MachineField.key).Nodup) :
    pyDict (row.map fun field => (field.key.toList, fieldJson field)) =
      row.map fun field => (field.key, fieldJson field) := by
  rw [pyDict, List.map_map, Grouping.last_of_nodup]
  · simp [Function.comp_def]
  · simpa [Function.comp_def] using hkeys

variable (repr : Json → String)

theorem addJsonRow_summary (h : SummaryRow c row) (kind : String) (cases : Cases) :
    addJsonRow repr kind cases (rowJson row) =
      addCase cases ⟨kind, c.name⟩ ⟨c.suite, metricsOf jsonNumber row⟩ := by
  have hmetrics : (row.map fun field => (field.key, fieldJson field)).foldlM
      (fun metrics item => addMetric metrics item.1 item.2) (fun _ => none) =
        .ok (metricsOf jsonNumber row) := by
    rw [List.foldlM_map, metricsOf, Grouping.fill, List.foldl_filterMap]
    refine foldlM_ok (fun field hfield metrics => ?_) _
    rw [addMetric, asFloat_fieldJson (h.finite field hfield)]
    cases jsonNumber field <;> rfl
  have hmembers : rowJson row =
      .obj (row.map fun field => (field.key.toList, fieldJson field)) := by
    simp [rowJson, jsonObject, Function.comp_def]
  rw [hmembers]
  simp only [addJsonRow, pyDict_row h.keys, hmetrics]
  obtain ⟨rest, rfl, -⟩ := h.fields
  simp [machineString, fieldJson, pyStr, List.lookup_cons]
  rfl

theorem caseKind_report {report : String} (h : report.isEmpty = false) (tableId : String) :
    caseKind report tableId = report := by
  simp [caseKind, h]

theorem reportName_ne_empty (t : ReportTable) : t.reportName.isEmpty = false := by
  unfold ReportTable.reportName
  split
  · decide
  · rename_i hreport
    simpa using hreport

theorem addCsvRow_summary (h : SummaryRow c row) {kind : String} (hkind : kind.isEmpty = false)
    (cases : Cases) :
    addCsvRow cases ((kind, "", ""), rowFields row) =
      addCase cases ⟨kind, c.name⟩ ⟨c.suite, metricsOf csvNumber row⟩ := by
  have hlast : Grouping.last (rowFields row) = rowFields row := by
    refine Grouping.last_of_nodup ?_
    simpa [rowFields, Function.comp_def] using h.keys
  have hname : ∀ kind : MachineValueKind, kind.name ≠ "number" ↔ kind ≠ .number := by
    intro kind
    cases kind <;> decide
  have hmetrics : (rowFields row).foldlM
      (fun metrics field => addCsvMetric metrics field.1 field.2.1 field.2.2) (fun _ => none) =
        .ok (metricsOf csvNumber row) := by
    rw [rowFields, List.foldlM_map, metricsOf, Grouping.fill, List.foldl_filterMap]
    refine foldlM_ok (fun field _ metrics => ?_) _
    simp only [addCsvMetric, hname, csvNumber]
    by_cases hkind : field.kind = .number
    · simp only [hkind, ne_eq, not_true_eq_false, if_false, if_true, addMetric, asFloat,
        String.ofList_toList]
      cases pyFloat field.value <;> rfl
    · simp [hkind]
  simp only [addCsvRow, hlast, hmetrics, caseKind_report hkind]
  obtain ⟨rest, rfl, -⟩ := h.fields
  simp [rowFields, machineString, List.lookup_cons]
  rfl

-- ---------------------------------------------------------------------------
-- Reports
-- ---------------------------------------------------------------------------

/-- The rows of the summary tables with the reports they are of. -/
def summaryRows (tables : List ReportTable) : List (String × List MachineField) :=
  (tables.filter fun t => isSummary t.tableId).flatMap fun t =>
    t.machineRows.map (t.reportName, ·)

theorem addJsonTable_eq (payload : List (String × Json)) (cases : Cases) (t : ReportTable) :
    addJsonTable repr payload cases (tableJson t) =
      if isSummary t.tableId then
        t.machineRows.foldlM (fun cases row => addJsonRow repr t.reportName cases (rowJson row))
          cases
      else .ok cases := by
  have hdict : pyDict [("report".toList, .str t.reportName.toList), ("id".toList,
      .str t.tableId.toList), ("title".toList, .str t.title.toList), ("rows".toList,
        .arr (t.machineRows.map rowJson))] =
      [("report", .str t.reportName.toList), ("id", .str t.tableId.toList),
        ("title", .str t.title.toList), ("rows", .arr (t.machineRows.map rowJson))] := by
    rw [pyDict, Grouping.last_of_nodup]
    · simp
    · simp
  simp only [tableJson, jsonObject, List.map_cons, List.map_nil, addJsonTable, hdict]
  cases hsummary : isSummary t.tableId with
  | false => simp [List.lookup_cons, pyStr, hsummary]
  | true => simp [List.lookup_cons, pyStr, hsummary, caseKind_report (reportName_ne_empty t), List.foldlM_map]

theorem foldlM_addJsonTable (payload : List (String × Json)) (tables : List ReportTable)
    (cases : Cases) :
    (tables.map tableJson).foldlM (addJsonTable repr payload) cases =
      (summaryRows tables).foldlM (fun cases row => addJsonRow repr row.1 cases (rowJson row.2))
        cases := by
  induction tables generalizing cases with
  | nil => rfl
  | cons t tables ih =>
    rw [List.map_cons, List.foldlM_cons, addJsonTable_eq]
    cases hsummary : isSummary t.tableId with
    | false =>
      have hrows : summaryRows (t :: tables) = summaryRows tables := by
        simp [summaryRows, hsummary]
      rw [hrows]
      exact ih cases
    | true =>
      have hrows : summaryRows (t :: tables) =
          t.machineRows.map (t.reportName, ·) ++ summaryRows tables := by
        simp [summaryRows, hsummary]
      rw [hrows, List.foldlM_append, List.foldlM_map, if_pos rfl]
      exact congrArg _ (funext ih)

theorem loadJsonReport_eq (reportName : String) (tables : List ReportTable)
    (issues : List MeasuredReportIssue) :
    ∃ members, reportJson reportName tables issues = .obj members ∧
      loadJsonReport repr (pyDict members) = (summaryRows tables).foldlM
        (fun cases row => addJsonRow repr row.1 cases (rowJson row.2)) fun _ => none := by
  refine ⟨_, rfl, ?_⟩
  have hdict : pyDict [("report".toList, .str reportName.toList), ("tables".toList,
      .arr (tables.map tableJson)), ("issues".toList, .arr (issues.map issueJson))] =
      [("report", .str reportName.toList), ("tables", .arr (tables.map tableJson)),
        ("issues", .arr (issues.map issueJson))] := by
    rw [pyDict, Grouping.last_of_nodup]
    · simp
    · simp
  simp only [List.map_cons, List.map_nil, hdict, loadJsonReport]
  simp [List.lookup_cons, foldlM_addJsonTable]

theorem foldlM_keyedRows (t : ReportTable) (rows : List (List MachineField)) (cases : Cases) :
    (keyedRows t.reportName t.tableId rows).foldlM addCsvRow cases =
      rows.foldlM (fun cases row => addCsvRow cases ((t.reportName, "", ""), rowFields row))
        cases := by
  conv_rhs => rw [← List.zipIdx_map_fst 0 rows]
  rw [keyedRows, List.foldlM_map, List.foldlM_map]
  simp only [addCsvRow, caseKind_report (reportName_ne_empty t)]

theorem foldlM_addCsvRow (tables : List ReportTable) (cases : Cases) :
    ((tables.filter fun t => isSummary t.tableId).flatMap ReportTable.rows).foldlM addCsvRow
        cases =
      (summaryRows tables).foldlM
        (fun cases row => addCsvRow cases ((row.1, "", ""), rowFields row.2)) cases := by
  rw [summaryRows]
  induction tables.filter fun t => isSummary t.tableId generalizing cases with
  | nil => rfl
  | cons t tables ih =>
    rw [List.flatMap_cons, List.flatMap_cons, List.foldlM_append, List.foldlM_append,
      ReportTable.rows, foldlM_keyedRows, List.foldlM_map]
    exact congrArg _ (funext ih)

theorem mapM_csvEntry {records : List (List String)}
    (h : ∀ record ∈ records, (rowEntry record).isSome) :
    records.mapM csvEntry = .ok (records.filterMap rowEntry) := by
  induction records with
  | nil => rfl
  | cons record records ih =>
    obtain ⟨entry, hentry⟩ := Option.isSome_iff_exists.mp (h record List.mem_cons_self)
    have hrest := ih fun record hrecord => h record (List.mem_cons_of_mem _ hrecord)
    rw [List.mapM_cons, hrest, List.filterMap_cons_some hentry, csvEntry, hentry]
    rfl

theorem csvRecords_six (tables : List ReportTable) (issues : List MeasuredReportIssue) :
    ∀ record ∈ csvRecords tables issues, (rowEntry record).isSome ∧ record ≠ [""] := by
  intro record hrecord
  simp only [csvRecords, List.mem_append, List.mem_flatMap, ReportTable.csvRecords, issueRecords,
    List.mem_map] at hrecord
  rcases hrecord with ⟨t, -, row, -, field, -, rfl⟩ | ⟨issue, -, field, -, rfl⟩ <;> simp [rowEntry]

theorem filter_keyedRows (report table : String) (rows : List (List MachineField)) :
    (keyedRows report table rows).filter (fun row => isSummary row.1.2.1) =
      if isSummary table then keyedRows report table rows else [] := by
  cases hsummary : isSummary table <;> simp [keyedRows, List.filter_map, Function.comp_def, hsummary]

theorem filter_reportRows (tables : List ReportTable) (issues : List MeasuredReportIssue) :
    (reportRows tables issues).filter (fun row => isSummary row.1.2.1) =
      (tables.filter fun t => isSummary t.tableId).flatMap ReportTable.rows := by
  have hissues : isSummary "issues" = false := by decide
  rw [reportRows, List.filter_append, filter_keyedRows, hissues, List.filter_flatMap]
  simp only [ReportTable.rows, filter_keyedRows, Bool.false_eq_true, if_false, List.append_nil]
  induction tables with
  | nil => rfl
  | cons t tables ih =>
    rw [List.flatMap_cons, ih, List.filter_cons]
    cases isSummary t.tableId with
    | false => rfl
    | true => rfl

/-- The records of the summary tables group into their rows. -/
theorem groups_summary {tables : List ReportTable} (issues : List MeasuredReportIssue)
    (hne : ∀ t ∈ tables, ∀ row ∈ t.machineRows, row ≠ [])
    (hnames : ((tables.filter fun t => isSummary t.tableId).map fun t =>
      (t.reportName, t.tableId)).Nodup) :
    Grouping.groups (((csvRecords tables issues).filterMap rowEntry).filter
        fun entry => isSummary entry.1.2.1) =
      (tables.filter fun t => isSummary t.tableId).flatMap ReportTable.rows := by
  have hblocks : ∀ block ∈ (tables.filter fun t => isSummary t.tableId).flatMap ReportTable.rows,
      block.2 ≠ [] := by
    intro block hblock
    obtain ⟨t, ht, hblock⟩ := List.mem_flatMap.mp hblock
    obtain ⟨⟨row, i⟩, hrow, rfl⟩ := List.mem_map.mp hblock
    have hrow := hne t (List.mem_of_mem_filter ht) row (List.fst_mem_of_mem_zipIdx hrow)
    simpa [rowFields] using hrow
  have hkeys : (((tables.filter fun t => isSummary t.tableId).flatMap ReportTable.rows).map
      Prod.fst).Nodup := by
    have hsections : (tables.filter fun t => isSummary t.tableId).flatMap ReportTable.rows =
        ((tables.filter fun t => isSummary t.tableId).map ReportTable.section).flatMap
          Section.keyed := by
      rw [List.flatMap_map]
      rfl
    rw [hsections, keyed_nodup_iff, List.pairwise_map]
    exact (List.pairwise_map.mp hnames).imp fun hnames hsame => absurd hsame hnames
  have hfilter := Grouping.entries_filter (fun key : RowKey => isSummary key.2.1)
    (reportRows tables issues)
  rw [filterMap_rowEntry_csvRecords, hfilter, filter_reportRows]
  exact (Grouping.groups_entries hblocks).mpr hkeys

theorem loadCsvReport_eq {tables : List ReportTable} (issues : List MeasuredReportIssue)
    (hne : ∀ t ∈ tables, ∀ row ∈ t.machineRows, row ≠ [])
    (hnames : ((tables.filter fun t => isSummary t.tableId).map fun t =>
      (t.reportName, t.tableId)).Nodup) :
    loadCsvReport (printCsvReport tables issues) =
      (summaryRows tables).foldlM
        (fun cases row => addCsvRow cases ((row.1, "", ""), rowFields row.2)) fun _ => none := by
  have hsix := csvRecords_six tables issues
  have hrecords : (csvRecords tables issues).filter (· ≠ [""]) = csvRecords tables issues := by
    rw [List.filter_eq_self]
    exact fun record hrecord => by simpa using (hsix record hrecord).2
  have hentries := mapM_csvEntry fun record hrecord => (hsix record hrecord).1
  have htexts : ((csvHeader :: csvRecords tables issues).map (·.map String.toList)).map
      (·.map String.ofList) = csvHeader :: csvRecords tables issues := by
    simp [Function.comp_def]
  have hload : loadCsvReport (printCsvReport tables issues) =
      (Grouping.groups (((csvRecords tables issues).filterMap rowEntry).filter
        fun entry => isSummary entry.1.2.1)).foldlM addCsvRow fun _ => none := by
    rw [loadCsvReport, read_printCsvReport, Option.map_some, htexts]
    simp only [ne_eq, not_true_eq_false, if_false]
    rw [hrecords, hentries]
    rfl
  rw [hload, groups_summary issues hne hnames, foldlM_addCsvRow]

end Gentest.Report
