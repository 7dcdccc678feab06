import Gentest.Lib.Decimal
import Gentest.Lib.Json
import Gentest.Report.ReportTables

/-!
# The JSON report

The report is printed piece by piece, and what comes out is the text of one
JSON value. Numbers are printed as their fields have them, so the report is
well formed as long as the library formats finite values as JSON numbers.
-/

namespace Gentest.Report

-- ---------------------------------------------------------------------------
-- Strings
-- ---------------------------------------------------------------------------

def hexChar (n : Nat) : Char :=
  if n < 10 then Char.ofNat ('0'.toNat + n) else Char.ofNat ('a'.toNat + (n - 10))

/-- The format `{:04x}` of a number below `0x10000`. -/
def hexFour (n : Nat) : List Char :=
  [hexChar (n / 4096 % 16), hexChar (n / 256 % 16), hexChar (n / 16 % 16), hexChar (n % 16)]

def escapeJsonChar (ch : Char) : List Char :=
  if ch = '"' then ['\\', '"']
  else if ch = '\\' then ['\\', '\\']
  else if ch = '\x08' then ['\\', 'b']
  else if ch = '\x0c' then ['\\', 'f']
  else if ch = '\n' then ['\\', 'n']
  else if ch = '\r' then ['\\', 'r']
  else if ch = '\t' then ['\\', 't']
  else if ch.toNat < 0x20 then ['\\', 'u'] ++ hexFour ch.toNat
  else [ch]

def escapeJsonString (value : List Char) : List Char := value.flatMap escapeJsonChar

/-- What the reader makes of an escaped character. -/
def escapedUnit (ch : Char) : Json.CodeUnit :=
  if ch.toNat < 0x20 ∧ ch ∉ ['\x08', '\x0c', '\n', '\r', '\t'] then .code ch.toNat else .char ch

theorem hexDigit?_hexChar {n : Nat} (h : n < 16) : Json.hexDigit? (hexChar n) = some n := by
  have hall : ∀ n ∈ List.range 16, Json.hexDigit? (hexChar n) = some n := by decide
  exact hall n (List.mem_range.mpr h)

theorem readUnits_code {n : Nat} (h : n < 65536) (rest : List Char) :
    Json.readUnits (['\\', 'u'] ++ hexFour n ++ rest) =
      (Json.readUnits rest).map fun r => (.code n :: r.1, r.2) := by
  have hvalue : ((n / 4096 % 16 * 16 + n / 256 % 16) * 16 + n / 16 % 16) * 16 + n % 16 = n := by
    omega
  simp only [hexFour, List.cons_append, List.nil_append]
  rw [Json.readUnits]
  simp only [hexDigit?_hexChar (Nat.mod_lt _ (by decide : 0 < 16)), Option.bind_eq_bind,
    Option.bind_some, hvalue]
  cases Json.readUnits rest <;> rfl

theorem readUnits_escapeJsonChar (ch : Char) (rest : List Char) :
    Json.readUnits (escapeJsonChar ch ++ rest) =
      (Json.readUnits rest).map fun r => (escapedUnit ch :: r.1, r.2) := by
  have hshort : ∀ c ∈ ['"', '\\', '\x08', '\x0c', '\n', '\r', '\t'],
      escapedUnit c = .char c :=
    List.all_iff_forall_prop.mp (by decide)
  unfold escapeJsonChar
  split_ifs with h1 h2 h3 h4 h5 h6 h7 h8
  · rw [hshort ch (by simp [h1]), h1]
    exact Json.readUnits_escaped _ _ rfl (by decide) rest
  · rw [hshort ch (by simp [h2]), h2]
    exact Json.readUnits_escaped _ _ rfl (by decide) rest
  · rw [hshort ch (by simp [h3]), h3]
    exact Json.readUnits_escaped _ _ rfl (by decide) rest
  · rw [hshort ch (by simp [h4]), h4]
    exact Json.readUnits_escaped _ _ rfl (by decide) rest
  · rw [hshort ch (by simp [h5]), h5]
    exact Json.readUnits_escaped _ _ rfl (by decide) rest
  · rw [hshort ch (by simp [h6]), h6]
    exact Json.readUnits_escaped _ _ rfl (by decide) rest
  · rw [hshort ch (by simp [h7]), h7]
    exact Json.readUnits_escaped _ _ rfl (by decide) rest
  · have hunit : escapedUnit ch = .code ch.toNat := by
      simp [escapedUnit, h3, h4, h5, h6, h7, h8]
    rw [hunit]
    exact readUnits_code (by omega) rest
  · have hunit : escapedUnit ch = .char ch := by
      simp [escapedUnit, h8]
    rw [hunit]
    exact Json.readUnits_plain h1 h2 h8 rest

theorem readUnits_escapeJsonString (value rest : List Char) :
    Json.readUnits (escapeJsonString value ++ '"' :: rest) =
      some (value.map escapedUnit, rest) := by
  induction value with
  | nil => rw [escapeJsonString, List.flatMap_nil, List.nil_append, Json.readUnits]; rfl
  | cons ch value ih =>
    rw [escapeJsonString, List.flatMap_cons, List.append_assoc, readUnits_escapeJsonChar]
    rw [escapeJsonString] at ih
    rw [ih]
    rfl

theorem decodeUnits_code {n : Nat} (h : n < 0xD800 ∨ 0xE000 ≤ n) (units : List Json.CodeUnit) :
    Json.decodeUnits (.code n :: units) =
      (Json.decodeUnits units).map (Char.ofNat n :: ·) := by
  have hscalar : ¬(0xD800 ≤ n ∧ n < 0xE000) := by omega
  cases units with
  | nil => simp [Json.decodeUnits, hscalar]
  | cons u units =>
    cases u with
    | char c => simp [Json.decodeUnits, hscalar]
    | code m =>
      have hhigh : ¬(0xD800 ≤ n ∧ n < 0xDC00 ∧ 0xDC00 ≤ m ∧ m < 0xE000) := by omega
      simp only [Json.decodeUnits, hhigh, hscalar, if_false]
      rfl

theorem decodeUnits_escapedUnit (value : List Char) :
    Json.decodeUnits (value.map escapedUnit) = some value := by
  induction value with
  | nil => rfl
  | cons ch value ih =>
    rw [List.map_cons, escapedUnit]
    split
    · rename_i hcontrol
      rw [decodeUnits_code (by omega), ih, Option.map_some, Char.ofNat_toNat]
    · simp [Json.decodeUnits, ih]

theorem escapeJsonString_escapes : Json.Escapes escapeJsonString := by
  intro value rest
  simp [Json.readString, readUnits_escapeJsonString, decodeUnits_escapedUnit]

-- ---------------------------------------------------------------------------
-- Printing
-- ---------------------------------------------------------------------------

def quoted (value : String) : List Char := '"' :: escapeJsonString value.toList ++ ['"']

def printJsonFieldValue (field : MachineField) : List Char :=
  match field.kind with
  | .string => quoted field.value
  | .number | .bool => field.value.toList
  | .null => "null".toList

def printJsonRow (row : List MachineField) : List Char :=
  ['{'] ++ [','].intercalate (row.map fun field =>
    quoted field.key ++ [':'] ++ printJsonFieldValue field) ++ ['}']

def printJsonTable (t : ReportTable) : List Char :=
  "\x7b\"report\":".toList ++ quoted t.reportName ++ ",\"id\":".toList ++ quoted t.tableId ++
    ",\"title\":".toList ++ quoted t.title ++ ",\"rows\":[".toList ++
    [','].intercalate (t.machineRows.map printJsonRow) ++ "]\x7d".toList

def printJsonIssue (issue : MeasuredReportIssue) : List Char :=
  "\x7b\"name\":".toList ++ quoted issue.name ++ ",\"file\":".toList ++ quoted issue.file ++
    ",\"line\":".toList ++ (toString issue.line).toList ++ ",\"message\":".toList ++
    quoted issue.message ++ ",\"infrastructure\":".toList ++
    (if issue.infrastructure then "true" else "false").toList ++ "\x7d".toList

def printJsonReport (reportName : String) (tables : List ReportTable)
    (issues : List MeasuredReportIssue) : List Char :=
  "\x7b\"report\":".toList ++ quoted reportName ++ ",\"tables\":[".toList ++
    [','].intercalate (tables.map printJsonTable) ++ "],\"issues\":[".toList ++
    [','].intercalate (issues.map printJsonIssue) ++ "]\x7d\n".toList

-- ---------------------------------------------------------------------------
-- The value that is printed
-- ---------------------------------------------------------------------------

def fieldJson (field : MachineField) : Json :=
  match field.kind with
  | .string => .str field.value.toList
  | .number => .num field.value.toList
  | .bool => .bool (field.value == "true")
  | .null => .null

def jsonObject (members : List (String × Json)) : Json :=
  .obj (members.map fun member => (member.1.toList, member.2))

def rowJson (row : List MachineField) : Json :=
  jsonObject (row.map fun field => (field.key, fieldJson field))

def tableJson (t : ReportTable) : Json :=
  jsonObject [("report", .str t.reportName.toList), ("id", .str t.tableId.toList),
    ("title", .str t.title.toList), ("rows", .arr (t.machineRows.map rowJson))]

def issueJson (issue : MeasuredReportIssue) : Json :=
  jsonObject [("name", .str issue.name.toList), ("file", .str issue.file.toList),
    ("line", .num (toString issue.line).toList), ("message", .str issue.message.toList),
    ("infrastructure", .bool issue.infrastructure)]

def reportJson (reportName : String) (tables : List ReportTable)
    (issues : List MeasuredReportIssue) : Json :=
  jsonObject [("report", .str reportName.toList), ("tables", .arr (tables.map tableJson)),
    ("issues", .arr (issues.map issueJson))]

/-- The text of a field is one of its kind. -/
def MachineField.WellFormed (field : MachineField) : Prop :=
  match field.kind with
  | .number => Json.isNumber field.value.toList = true
  | .bool => field.value = "true" ∨ field.value = "false"
  | .string | .null => True

theorem render_str (value : String) :
    Json.render escapeJsonString (.str value.toList) = quoted value := by
  rw [Json.render, quoted]

theorem render_fieldJson {field : MachineField} (h : field.WellFormed) :
    Json.render escapeJsonString (fieldJson field) = printJsonFieldValue field := by
  obtain ⟨key, value, kind⟩ := field
  cases kind with
  | string => exact render_str value
  | number => rw [fieldJson, Json.render, printJsonFieldValue]
  | bool =>
    rcases h with h | h
    · subst h
      rfl
    · subst h
      rfl
  | null => rfl

theorem render_jsonObject (members : List (String × Json)) :
    Json.render escapeJsonString (jsonObject members) =
      '{' :: [','].intercalate (members.map fun member =>
        quoted member.1 ++ [':'] ++ Json.render escapeJsonString member.2) ++ ['}'] := by
  rw [jsonObject, Json.render, Json.renderMembers_eq, List.map_map]
  have hmember : ((fun m : List Char × Json => '"' :: escapeJsonString m.1 ++
      '"' :: ':' :: Json.render escapeJsonString m.2) ∘
        fun member : String × Json => (member.1.toList, member.2)) =
      fun member => quoted member.1 ++ [':'] ++ Json.render escapeJsonString member.2 := by
    funext member
    simp [quoted]
  rw [hmember]

theorem render_array (elements : List Json) :
    Json.render escapeJsonString (.arr elements) =
      '[' :: [','].intercalate (elements.map (Json.render escapeJsonString)) ++ [']'] := by
  rw [Json.render, Json.renderElements_eq]

theorem render_rowJson {row : List MachineField} (h : ∀ field ∈ row, field.WellFormed) :
    Json.render escapeJsonString (rowJson row) = printJsonRow row := by
  rw [rowJson, render_jsonObject, printJsonRow, List.map_map]
  have hfields : row.map ((fun member : String × Json =>
      quoted member.1 ++ [':'] ++ Json.render escapeJsonString member.2) ∘
        fun field => (field.key, fieldJson field)) =
      row.map fun field => quoted field.key ++ [':'] ++ printJsonFieldValue field := by
    refine List.map_congr_left fun field hfield => ?_
    simp [render_fieldJson (h field hfield)]
  rw [hfields]
  rfl

theorem intercalate_cons_cons (a b : List Char) (l : List (List Char)) :
    [','].intercalate (a :: b :: l) = a ++ ',' :: [','].intercalate (b :: l) := by
  simp [List.intercalate]

theorem intercalate_singleton (a : List Char) : [','].intercalate [a] = a := by
  simp [List.intercalate]

theorem render_tableJson {t : ReportTable}
    (h : ∀ row ∈ t.machineRows, ∀ field ∈ row, field.WellFormed) :
    Json.render escapeJsonString (tableJson t) = printJsonTable t := by
  have hrows : t.machineRows.map (Json.render escapeJsonString ∘ rowJson) =
      t.machineRows.map printJsonRow :=
    List.map_congr_left fun row hrow => render_rowJson (h row hrow)
  have hreport : "\x7b\"report\":".toList = '{' :: quoted "report" ++ [':'] := by decide
  have hid : ",\"id\":".toList = ',' :: quoted "id" ++ [':'] := by decide
  have htitle : ",\"title\":".toList = ',' :: quoted "title" ++ [':'] := by decide
  have hopen : ",\"rows\":[".toList = ',' :: quoted "rows" ++ [':', '['] := by decide
  have hclose : "]\x7d".toList = [']', '}'] := by decide
  rw [tableJson, render_jsonObject]
  unfold printJsonTable
  rw [hreport, hid, htitle, hopen, hclose]
  simp only [List.map_cons, List.map_nil, render_str, render_array, List.map_map, hrows,
    intercalate_cons_cons, intercalate_singleton]
  simp only [List.append_assoc, List.cons_append, List.nil_append]

theorem render_issueJson (issue : MeasuredReportIssue) :
    Json.render escapeJsonString (issueJson issue) = printJsonIssue issue := by
  have hname : "\x7b\"name\":".toList = '{' :: quoted "name" ++ [':'] := by decide
  have hfile : ",\"file\":".toList = ',' :: quoted "file" ++ [':'] := by decide
  have hline : ",\"line\":".toList = ',' :: quoted "line" ++ [':'] := by decide
  have hmessage : ",\"message\":".toList = ',' :: quoted "message" ++ [':'] := by decide
  have hinfra : ",\"infrastructure\":".toList = ',' :: quoted "infrastructure" ++ [':'] := by
    decide
  have hclose : "\x7d".toList = ['}'] := by decide
  have hbool : Json.render escapeJsonString (.bool issue.infrastructure) =
      (if issue.infrastructure then "true" else "false").toList := by
    cases issue.infrastructure <;> rfl
  have hnumber : ∀ text, Json.render escapeJsonString (.num text) = text := by
    intro text
    rw [Json.render]
  rw [issueJson, render_jsonObject]
  unfold printJsonIssue
  rw [hname, hfile, hline, hmessage, hinfra, hclose]
  simp only [List.map_cons, List.map_nil, render_str, hbool, hnumber, intercalate_cons_cons,
    intercalate_singleton]
  simp only [List.append_assoc, List.cons_append, List.nil_append]

theorem render_reportJson (reportName : String) {tables : List ReportTable}
    (issues : List MeasuredReportIssue)
    (h : ∀ t ∈ tables, ∀ row ∈ t.machineRows, ∀ field ∈ row, field.WellFormed) :
    Json.render escapeJsonString (reportJson reportName tables issues) ++ ['\n'] =
      printJsonReport reportName tables issues := by
  have htables : tables.map (Json.render escapeJsonString ∘ tableJson) =
      tables.map printJsonTable :=
    List.map_congr_left fun t ht => render_tableJson (h t ht)
  have hissues : issues.map (Json.render escapeJsonString ∘ issueJson) =
      issues.map printJsonIssue :=
    List.map_congr_left fun issue _ => render_issueJson issue
  have hreport : "\x7b\"report\":".toList = '{' :: quoted "report" ++ [':'] := by decide
  have hopen : ",\"tables\":[".toList = ',' :: quoted "tables" ++ [':', '['] := by decide
  have hnext : "],\"issues\":[".toList = ']' :: ',' :: quoted "issues" ++ [':', '['] := by decide
  have hclose : "]\x7d\n".toList = [']', '}', '\n'] := by decide
  rw [reportJson, render_jsonObject]
  unfold printJsonReport
  rw [hreport, hopen, hnext, hclose]
  simp only [List.map_cons, List.map_nil, render_str, render_array, List.map_map, htables, hissues,
    intercalate_cons_cons, intercalate_singleton]
  simp only [List.append_assoc, List.cons_append, List.nil_append]

-- ---------------------------------------------------------------------------
-- Numbers
-- ---------------------------------------------------------------------------

theorem toList_toString (n : Nat) : (toString n).toList = Nat.toDigits 10 n := Nat.toList_repr

theorem isDigit_toString (n : Nat) : ∀ c ∈ (toString n).toList, c.isDigit = true := by
  rw [toList_toString]
  exact fun c hc => Nat.isDigit_of_mem_toDigits (by decide) (by decide) hc

theorem isUnsigned_toString (n : Nat) : Json.isUnsigned (toString n).toList = true := by
  have hdigits := isDigit_toString n
  rw [toList_toString] at hdigits ⊢
  have hne : Nat.toDigits 10 n ≠ [] := Nat.toDigits_ne_nil
  have hhead := Decimal.head?_toDigits n
  generalize Nat.toDigits 10 n = digits at hdigits hne hhead
  have htake : digits.takeWhile Char.isDigit = digits := List.takeWhile_eq_self_iff.mpr hdigits
  have hdrop : digits.dropWhile Char.isDigit = [] := List.dropWhile_eq_nil_iff.mpr hdigits
  have hzero : (digits == ['0'] || digits.head? != some '0') = true := by
    rcases hhead with h | h <;> simp [h]
  simp [Json.isUnsigned, htake, hdrop, hne, hzero, Json.isFraction, Json.isExponent]

theorem isNumber_toString (n : Nat) : Json.isNumber (toString n).toList = true := by
  unfold Json.isNumber
  split
  · rename_i text heq
    exact absurd (isDigit_toString n '-' (heq ▸ List.mem_cons_self)) (by decide)
  · exact isUnsigned_toString n

variable {F : Type} {d : Doubles F}

/-- The library formats a finite value as a JSON number. -/
def FormatsNumbers (d : Doubles F) : Prop :=
  ∀ x, d.isFinite x = true → Json.isNumber (d.format x).toList = true

theorem wholeDoubles_formats : FormatsNumbers wholeDoubles := by
  intro x _
  cases x with
  | ofNat n => exact isNumber_toString n
  | negSucc n =>
    have htext : (wholeDoubles.format (Int.negSucc n)).toList = '-' :: (toString (n + 1)).toList :=
      String.toList_append
    rw [htext]
    exact isUnsigned_toString (n + 1)

theorem machineString_wellFormed (key value : String) : (machineString key value).WellFormed :=
  trivial

theorem machineCount_wellFormed (key : String) (n : Nat) : (machineCount key n).WellFormed :=
  isNumber_toString n

theorem machineBool_wellFormed (key : String) (b : Bool) : (machineBool key b).WellFormed := by
  cases b
  · exact .inr rfl
  · exact .inl rfl

theorem machineNumber_wellFormed (h : FormatsNumbers d) (key : String) (x : F) :
    (machineNumber d key x).WellFormed := by
  unfold machineNumber formatMachineNumber
  cases hx : d.isFinite x with
  | false => exact trivial
  | true =>
    simp only [Bool.not_true, Bool.false_eq_true, if_false]
    split
    · exact trivial
    · exact h x hx

theorem machineOptionalPct_wellFormed (h : FormatsNumbers d) (key : String) (present : Bool)
    (x : F) : (machineOptionalPct d key present x).WellFormed := by
  unfold machineOptionalPct
  split
  · exact machineNumber_wellFormed h key x
  · exact trivial

theorem tables_wellFormed (h : FormatsNumbers d) (m : Measurements F) :
    ∀ t ∈ m.tables d, ∀ row ∈ t.machineRows, ∀ field ∈ row, field.WellFormed := by
  intro t ht row hrow
  rcases List.mem_append.mp ht with ht | ht
  · rw [List.mem_ite_nil_right, buildBenchReportTables] at ht
    simp only [List.mem_cons, List.not_mem_nil, or_false] at ht
    rcases ht with ⟨-, rfl | rfl⟩
    all_goals
      obtain ⟨shown, -, rfl⟩ := List.mem_map.mp hrow
      simp only [benchSummaryRow, benchDebugRow, List.forall_mem_cons, List.not_mem_nil,
        IsEmpty.forall_iff, implies_true, machineString_wellFormed, machineCount_wellFormed,
        machineBool_wellFormed, machineNumber_wellFormed h, machineOptionalPct_wellFormed h,
        and_true]
  · rw [List.mem_ite_nil_right, buildJitterReportTables] at ht
    simp only [List.mem_append, List.mem_cons, List.not_mem_nil, or_false, List.mem_map] at ht
    rcases ht with ⟨-, (rfl | rfl) | ⟨shown, -, rfl⟩⟩
    all_goals
      obtain ⟨shown, -, rfl⟩ := List.mem_map.mp hrow
      simp only [jitterSummaryRow, jitterDebugRow, histogramRow, List.forall_mem_cons,
        List.not_mem_nil, IsEmpty.forall_iff, implies_true, machineString_wellFormed,
        machineCount_wellFormed, machineBool_wellFormed, machineNumber_wellFormed h,
        machineOptionalPct_wellFormed h, and_true]

-- ---------------------------------------------------------------------------
-- Reading
-- ---------------------------------------------------------------------------

theorem numeric_jsonObject (members : List (String × Json)) :
    (jsonObject members).Numeric ↔ ∀ member ∈ members, member.2.Numeric := by
  rw [jsonObject, Json.Numeric, Json.numericMembers_iff, List.forall_mem_map]

theorem numeric_array (elements : List Json) :
    (Json.arr elements).Numeric ↔ ∀ j ∈ elements, j.Numeric := by
  rw [Json.Numeric, Json.numericElements_iff]

theorem numeric_fieldJson {field : MachineField} (h : field.WellFormed) :
    (fieldJson field).Numeric := by
  obtain ⟨key, value, kind⟩ := field
  cases kind with
  | number =>
    rw [fieldJson, Json.Numeric]
    exact h
  | string | bool | null =>
    rw [fieldJson, Json.Numeric]
    all_goals simp

theorem numeric_reportJson (reportName : String) {tables : List ReportTable}
    (issues : List MeasuredReportIssue)
    (h : ∀ t ∈ tables, ∀ row ∈ t.machineRows, ∀ field ∈ row, field.WellFormed) :
    (reportJson reportName tables issues).Numeric := by
  have hstr : ∀ s, (Json.str s).Numeric := fun s => by simp [Json.Numeric]
  have hbool : ∀ b, (Json.bool b).Numeric := fun s => by simp [Json.Numeric]
  have hnum : ∀ n : Nat, (Json.num (toString n).toList).Numeric := by
    intro n
    rw [Json.Numeric]
    exact isNumber_toString n
  have htable : ∀ t ∈ tables, (tableJson t).Numeric := by
    intro t ht
    simp only [tableJson, numeric_jsonObject, List.forall_mem_cons, hstr, numeric_array,
      List.forall_mem_map, rowJson, true_and, List.not_mem_nil, IsEmpty.forall_iff, implies_true,
      and_true]
    exact fun row hrow field hfield => numeric_fieldJson (h t ht row hrow field hfield)
  simp only [reportJson, numeric_jsonObject, List.forall_mem_cons, hstr, numeric_array,
    List.forall_mem_map, true_and, List.not_mem_nil, IsEmpty.forall_iff, implies_true, and_true]
  refine ⟨htable, fun issue _ => ?_⟩
  simp only [issueJson, numeric_jsonObject, List.forall_mem_cons, hstr, hbool, hnum,
    List.not_mem_nil, IsEmpty.forall_iff, implies_true, and_true]

theorem read_printJsonReport (h : FormatsNumbers d) (m : Measurements F) (reportName : String) :
    Json.read (printJsonReport reportName (m.tables d) m.issues) =
      some (reportJson reportName (m.tables d) m.issues) := by
  have hfields := tables_wellFormed h m
  rw [← render_reportJson reportName m.issues hfields]
  exact Json.read_render escapeJsonString_escapes (numeric_reportJson reportName m.issues hfields)
    (List.all_iff_forall_prop.mp (by decide))

end Gentest.Report
