import Gentest.Lib.JsonUtf8
import Gentest.Report.InventoryJson

/-!
# The JSON report in bytes

Names, suites, files and messages are bytes, and `escape_json_string` copies
every byte from 0x80 on. A string of the model stands for such bytes, one
character for each.
-/

namespace Gentest.Report

open Utf8
open Json (bytes IsBytes AllStrings EscapesAscii)

variable {F : Type}

/-- What a report shows of the program under test. -/
def Measurements.strings (m : Measurements F) : List String :=
  (shownRows m.benchRows).flatMap (fun row => [row.1.name, row.1.suite]) ++
    (shownRows m.jitterRows).flatMap (fun row => [row.1.name, row.1.suite]) ++
    m.issues.flatMap fun issue => [issue.name, issue.file, issue.message]

/-- The bytes `print_json_report` writes. -/
def reportBytes (d : Doubles F) (m : Measurements F) : List UInt8 :=
  bytes (printJsonReport m.reportName (m.tables d) m.issues)

/-- The document is valid UTF-8 and valid JSON, and its strings decode to what
`append_json_string` gives for their bytes. -/
def ValidReport (d : Doubles F) (m : Measurements F) : Prop :=
  ∃ (text : List Char) (f : List Char → List Char), encode text = reportBytes d m ∧
    (∀ s, ∃ literal, appendJsonString (bytes s) = encode literal ∧ Json.read literal = some (.str (f s))) ∧
    Json.read text = some ((reportJson m.reportName (m.tables d) m.issues).mapStrings f)

-- ---------------------------------------------------------------------------
-- The strings of the report
-- ---------------------------------------------------------------------------

def isAscii (s : String) : Bool := s.toList.all fun c => c.toNat < 0x80

/-- A property of strings that ASCII texts have, and strings between them if and
only if the string alone has it. -/
structure AsciiBlind (P : List Char → Prop) : Prop where
  ascii : ∀ s : String, isAscii s = true → P s.toList
  between : ∀ s t u : String, isAscii s = true → isAscii u = true → (P (s ++ t ++ u).toList ↔ P t.toList)

variable {P : List Char → Prop} {d : Doubles F}

def FieldStrings (P : List Char → Prop) (field : MachineField) : Prop :=
  P field.key.toList ∧ (field.kind = .string → P field.value.toList)

attribute [local grind =] FieldStrings machineString machineCount machineBool machineNumber machineNull
  machineOptionalPct fieldJson rowJson jsonObject tableJson issueJson reportJson isAscii AllStrings

theorem fieldStrings_string (h : AsciiBlind P) {key value : String} (hkey : isAscii key = true) :
    FieldStrings P (machineString key value) ↔ P value.toList := by
  simp [FieldStrings, machineString, h.ascii key hkey]

theorem fieldStrings_count (h : AsciiBlind P) {key : String} {n : Nat} (hkey : isAscii key = true) :
    FieldStrings P (machineCount key n) ↔ True := by
  simp [FieldStrings, machineCount, h.ascii key hkey]

theorem fieldStrings_bool (h : AsciiBlind P) {key : String} {b : Bool} (hkey : isAscii key = true) :
    FieldStrings P (machineBool key b) ↔ True := by
  simp [FieldStrings, machineBool, h.ascii key hkey]

theorem fieldStrings_number (h : AsciiBlind P) {key : String} {x : F} (hkey : isAscii key = true) :
    FieldStrings P (machineNumber d key x) ↔ True := by
  simp only [machineNumber]
  split
  · simp [FieldStrings, machineNull, h.ascii key hkey]
  · simp [FieldStrings, h.ascii key hkey]

theorem fieldStrings_optionalPct (h : AsciiBlind P) {key : String} {present : Bool} {x : F} (hkey : isAscii key = true) :
    FieldStrings P (machineOptionalPct d key present x) ↔ True := by
  unfold machineOptionalPct
  split
  · exact fieldStrings_number h hkey
  · simp [FieldStrings, machineNull, h.ascii key hkey]

theorem fieldJson_strings (field : MachineField) :
    AllStrings P (fieldJson field) ↔ (field.kind = .string → P field.value.toList) := by
  obtain ⟨key, value, kind⟩ := field
  cases kind <;> simp [fieldJson, AllStrings]

theorem jsonObject_strings (members : List (String × Json)) :
    AllStrings P (jsonObject members) ↔ ∀ member ∈ members, P member.1.toList ∧ AllStrings P member.2 := by
  rw [jsonObject, AllStrings, Json.allStringsMembers_iff, List.forall_mem_map]

theorem rowJson_strings (row : List MachineField) :
    AllStrings P (rowJson row) ↔ ∀ field ∈ row, FieldStrings P field := by
  rw [rowJson, jsonObject_strings, List.forall_mem_map]
  simp only [fieldJson_strings, FieldStrings]

theorem ascii_iff (h : AsciiBlind P) {s : String} (hs : isAscii s = true) : P s.toList ↔ True :=
  iff_true_intro (h.ascii s hs)

theorem tableJson_strings (h : AsciiBlind P) (t : ReportTable) :
    AllStrings P (tableJson t) ↔ P t.reportName.toList ∧ P t.tableId.toList ∧ P t.title.toList ∧
      ∀ row ∈ t.machineRows, ∀ field ∈ row, FieldStrings P field := by
  simp (disch := decide) only [tableJson, jsonObject_strings, List.forall_mem_cons, AllStrings, ascii_iff h]
  simp [Json.allStringsElements_iff, rowJson_strings]

theorem issueJson_strings (h : AsciiBlind P) (issue : MeasuredReportIssue) :
    AllStrings P (issueJson issue) ↔ P issue.name.toList ∧ P issue.file.toList ∧ P issue.message.toList := by
  simp (disch := decide) only [issueJson, jsonObject_strings, List.forall_mem_cons, AllStrings, ascii_iff h]
  simp

theorem reportJson_strings (h : AsciiBlind P) {reportName : String} (hname : isAscii reportName = true)
    (tables : List ReportTable) (issues : List MeasuredReportIssue) :
    AllStrings P (reportJson reportName tables issues) ↔
      (∀ t ∈ tables, AllStrings P (tableJson t)) ∧
        ∀ issue ∈ issues, P issue.name.toList ∧ P issue.file.toList ∧ P issue.message.toList := by
  simp (disch := first | exact hname | decide) only [reportJson, jsonObject_strings, List.forall_mem_cons, AllStrings,
    ascii_iff h]
  simp [Json.allStringsElements_iff, issueJson_strings h]

-- ---------------------------------------------------------------------------
-- The tables
-- ---------------------------------------------------------------------------

/-- The name and the suite of every shown row. -/
def RowStrings {R : Type} (P : List Char → Prop) (rows : List (ReportRow R)) : Prop :=
  ∀ row ∈ shownRows rows, P row.1.name.toList ∧ P row.1.suite.toList

theorem benchTables_strings (h : AsciiBlind P) (rows : List (BenchReportRow F)) (opt : CliOptions F) :
    (∀ t ∈ buildBenchReportTables d rows opt, AllStrings P (tableJson t)) ↔ RowStrings P rows := by
  simp (disch := decide) only [buildBenchReportTables, List.forall_mem_cons, tableJson_strings h, ReportTable.reportName,
    ReportTable.tableId, List.forall_mem_map, benchSummaryRow, benchDebugRow, fieldStrings_string h,
    fieldStrings_count h, fieldStrings_bool h, fieldStrings_number h, fieldStrings_optionalPct h, ascii_iff h]
  simp [RowStrings]

theorem isAscii_append (s t : String) : isAscii (s ++ t) = (isAscii s && isAscii t) := by
  simp [isAscii, String.toList_append, List.all_append]

theorem isAscii_nat (n : Nat) : isAscii (toString n) = true := by
  rw [isAscii, List.all_eq_true]
  intro c hc
  have hdigit := isDigit_toString n c hc
  simp only [Char.isDigit, Bool.and_eq_true, decide_eq_true_eq] at hdigit
  exact decide_eq_true (Nat.lt_of_le_of_lt hdigit.2 (by decide))

theorem isAscii_int (i : Int) : isAscii (toString i) = true := by
  cases i with
  | ofNat n => exact isAscii_nat n
  | negSucc n =>
    change isAscii ("-" ++ toString (n + 1)) = true
    rw [isAscii_append, isAscii_nat]
    decide

theorem histogramTable_strings (h : AsciiBlind P) (opt : CliOptions F) (c : Case) (r : JitterResult F) :
    AllStrings P (tableJson (histogramTable d opt c r)) ↔
      P c.name.toList ∧ ∀ row ∈ (histogramTable d opt c r).machineRows, ∀ field ∈ row, FieldStrings P field := by
  have htitle : P (histogramTable d opt c r).title.toList ↔ P c.name.toList := by
    have hbetween := h.between ("Jitter histogram (bins=" ++ toString opt.jitterBins ++ ", name=") c.name ")"
      (by rw [isAscii_append, isAscii_append, isAscii_int]; decide) (by decide)
    exact hbetween
  have hreport : P (histogramTable d opt c r).reportName.toList := h.ascii "jitter" (by decide)
  have hid : P (histogramTable d opt c r).tableId.toList := h.ascii "jitter.histogram" (by decide)
  rw [tableJson_strings h, htitle]
  simp [hreport, hid]

theorem histogramRows_strings (h : AsciiBlind P) (opt : CliOptions F) {c : Case} (r : JitterResult F)
    (hname : P c.name.toList) (hsuite : P c.suite.toList) :
    ∀ row ∈ (histogramTable d opt c r).machineRows, ∀ field ∈ row, FieldStrings P field := by
  intro row hrow
  obtain ⟨bin, -, rfl⟩ := List.mem_map.mp hrow
  simp (disch := decide) only [histogramRow, List.forall_mem_cons, fieldStrings_string h, fieldStrings_count h,
    fieldStrings_bool h, fieldStrings_number h, hname, hsuite, true_and]
  simp

theorem jitterTables_strings (h : AsciiBlind P) (rows : List (JitterReportRow F)) (opt : CliOptions F) :
    (∀ t ∈ buildJitterReportTables d rows opt, AllStrings P (tableJson t)) ↔ RowStrings P rows := by
  have hmode : ∀ batch : Bool, P (if batch then "batch" else "per-call").toList ↔ True := by
    intro batch
    cases batch
    · exact ascii_iff h (by decide)
    · exact ascii_iff h (by decide)
  rw [buildJitterReportTables, List.forall_mem_append, List.forall_mem_map]
  have hsummary : (∀ t ∈ (buildJitterReportTables d rows opt).take 2, AllStrings P (tableJson t)) ↔ RowStrings P rows := by
    simp (disch := decide) only [buildJitterReportTables, List.cons_append, List.take_succ_cons, List.take_zero,
      List.forall_mem_cons, tableJson_strings h, ReportTable.reportName, ReportTable.tableId, List.forall_mem_map,
      jitterSummaryRow, jitterDebugRow, fieldStrings_string h, fieldStrings_count h, fieldStrings_bool h,
      fieldStrings_number h, fieldStrings_optionalPct h, hmode, ascii_iff h]
    simp [RowStrings]
  constructor
  · rintro ⟨htables, -⟩
    exact hsummary.mp htables
  · intro hrows
    refine ⟨hsummary.mpr hrows, fun row hrow => ?_⟩
    obtain ⟨hname, hsuite⟩ := hrows row hrow
    exact (histogramTable_strings h opt row.1 row.2).mpr ⟨hname, histogramRows_strings h opt row.2 hname hsuite⟩

/-- The strings of the report are those of the measurements. -/
theorem report_strings (h : AsciiBlind P) (m : Measurements F) :
    AllStrings P (reportJson m.reportName (m.tables d) m.issues) ↔ ∀ s ∈ m.strings, P s.toList := by
  have hname : isAscii m.reportName = true := by
    unfold Measurements.reportName
    split
    · decide
    · split <;> decide
  have hbench : (∀ t ∈ if m.includesBench then buildBenchReportTables d m.benchRows m.opt else [],
      AllStrings P (tableJson t)) ↔ RowStrings P m.benchRows := by
    split
    · exact benchTables_strings h m.benchRows m.opt
    · rename_i hnot
      simp only [Measurements.includesBench, Bool.or_eq_true, Bool.not_eq_true', not_or, Bool.not_eq_false,
        List.isEmpty_iff] at hnot
      simp [RowStrings, hnot.2, shownRows]
  have hjitter : (∀ t ∈ if m.includesJitter then buildJitterReportTables d m.jitterRows m.opt else [],
      AllStrings P (tableJson t)) ↔ RowStrings P m.jitterRows := by
    split
    · exact jitterTables_strings h m.jitterRows m.opt
    · rename_i hnot
      simp only [Measurements.includesJitter, Bool.or_eq_true, Bool.not_eq_true', not_or, Bool.not_eq_false,
        List.isEmpty_iff] at hnot
      simp [RowStrings, hnot.2, shownRows]
  rw [reportJson_strings h hname, Measurements.tables, List.forall_mem_append, hbench, hjitter]
  simp only [Measurements.strings, List.forall_mem_append, List.forall_mem_flatMap, RowStrings]
  simp

-- ---------------------------------------------------------------------------
-- Validity
-- ---------------------------------------------------------------------------

theorem ascii_of_isAscii {s : String} (h : isAscii s = true) : ∀ c ∈ s.toList, c.toNat < 0x80 := by
  rw [isAscii, List.all_eq_true] at h
  exact fun c hc => of_decide_eq_true (h c hc)

theorem asciiBlind_isBytes : AsciiBlind IsBytes := by
  have hascii : ∀ s : String, isAscii s = true → IsBytes s.toList :=
    fun s hs c hc => Nat.lt_trans (ascii_of_isAscii hs c hc) (by decide)
  refine ⟨hascii, fun s t u hs hu => ?_⟩
  simp only [IsBytes, String.toList_append, List.forall_mem_append]
  exact ⟨fun h => h.1.2, fun h => ⟨⟨hascii s hs, h⟩, hascii u hu⟩⟩

theorem asciiBlind_valid : AsciiBlind fun s => Valid (bytes s) := by
  have hbytes : ∀ s : String, isAscii s = true → ∀ b ∈ bytes s.toList, b.toNat < 0x80 := by
    intro s hs b hb
    obtain ⟨c, hc, rfl⟩ := List.mem_map.mp hb
    exact Json.byteOf_ascii (ascii_of_isAscii hs c hc)
  refine ⟨fun s hs => Json.valid_ascii (ascii_of_isAscii hs), fun s t u hs hu => ?_⟩
  rw [String.toList_append, String.toList_append, Json.bytes_append, Json.bytes_append, List.append_assoc,
    valid_ascii_append (hbytes s hs)]
  exact valid_append_ascii (hbytes u hu)

theorem AsciiBlind.and {Q : List Char → Prop} (h : AsciiBlind P) (h' : AsciiBlind Q) :
    AsciiBlind fun s => P s ∧ Q s :=
  ⟨fun s hs => ⟨h.ascii s hs, h'.ascii s hs⟩,
    fun s t u hs hu => and_congr (h.between s t u hs hu) (h'.between s t u hs hu)⟩

theorem escapeJsonChar_escapesAscii : EscapesAscii escapeJsonChar := by
  refine ⟨fun c hc => escapeJsonChar_high hc, fun c hc => ?_⟩
  have hall : ∀ n : Fin 128, (!(escapeJsonChar (Char.ofNat n.val)).isEmpty &&
      (escapeJsonChar (Char.ofNat n.val)).all fun d => decide (d.toNat < 0x80)) = true := by decide +kernel
  have hthis := hall ⟨c.toNat, hc⟩
  rw [Char.ofNat_toNat, Bool.and_eq_true, List.all_eq_true] at hthis
  exact ⟨by simpa using hthis.1, fun d hd => of_decide_eq_true (hthis.2 d hd)⟩

/-- The text of the literal `append_json_string` writes. -/
noncomputable def decodedText (s : List Char) : List Char :=
  (exists_splits (bytes s)).choose.map decodedChar

theorem encode_decodedText {s : List Char} : encode (decodedText s) = bytes s ↔ Valid (bytes s) := by
  constructor
  · exact fun h => ⟨_, h⟩
  · rintro ⟨cs, hcs⟩
    rw [decodedText, decoded_of_encode (exists_splits (bytes s)).choose_spec hcs, hcs]

variable {m : Measurements F}

theorem reportBytes_eq (h : FormatsNumbers d) (m : Measurements F) :
    reportBytes d m = bytes (Json.render (·.flatMap escapeJsonChar)
      (reportJson m.reportName (m.tables d) m.issues)) ++ bytes ['\n'] := by
  rw [reportBytes, ← render_reportJson m.reportName m.issues (tables_wellFormed h m), Json.bytes_append]
  rfl

theorem strings_valid (h : FormatsNumbers d) (hbytes : ∀ s ∈ m.strings, IsBytes s.toList) (hreport : ValidReport d m) :
    ∀ s ∈ m.strings, Valid (bytes s.toList) := by
  obtain ⟨text, -, htext, -⟩ := hreport
  have hvalid : Valid (reportBytes d m) := ⟨text, htext⟩
  rw [reportBytes_eq h, valid_append_ascii (by decide)] at hvalid
  rw [Json.valid_render escapeJsonChar_escapesAscii (numeric_reportJson m.reportName m.issues (tables_wellFormed h m))
    ((report_strings asciiBlind_isBytes m).mpr hbytes)] at hvalid
  exact (report_strings asciiBlind_valid m).mp hvalid

/-- The report is valid if and only if every name, suite, file and message it
shows is. -/
theorem json_report_valid_iff (h : FormatsNumbers d) (m : Measurements F)
    (hbytes : ∀ s ∈ m.strings, IsBytes s.toList) :
    ValidReport d m ↔ ∀ s ∈ m.strings, Valid (bytes s.toList) := by
  refine ⟨strings_valid h hbytes, fun hvalid => ?_⟩
  have hnumeric := numeric_reportJson m.reportName m.issues (tables_wellFormed h m)
  have hstrings : AllStrings (fun s => IsBytes s ∧ encode (decodedText s) = bytes s)
      (reportJson m.reportName (m.tables d) m.issues) := by
    simp only [encode_decodedText]
    exact (report_strings (asciiBlind_isBytes.and asciiBlind_valid) m).mpr fun s hs => ⟨hbytes s hs, hvalid s hs⟩
  refine ⟨Json.render escapeJsonString ((reportJson m.reportName (m.tables d) m.issues).mapStrings decodedText) ++ ['\n'],
    decodedText, ?_, fun s => appendJsonString_reads (exists_splits (bytes s)).choose_spec, ?_⟩
  · rw [reportBytes_eq h, encode_append]
    exact congrArg (· ++ _) (Json.encode_render escapeJsonChar_escapesAscii hnumeric hstrings)
  · exact Json.read_render escapeJsonString_escapes (Json.numeric_mapStrings hnumeric)
      (List.all_iff_forall_prop.mp (by decide))

/-- A report of one failure with the given message. -/
def failedWith (message : String) : Measurements Int where
  benchRows := []
  jitterRows := []
  opt := { jitterBins := 10, minEpochTimeS := 0, minTotalTimeS := 0, maxTotalTimeS := 1 }
  issues := [{ name := "io/read", file := "io.cpp", line := 7, message }]

theorem failedWith_strings (h : AsciiBlind P) (message : String) :
    (∀ s ∈ (failedWith message).strings, P s.toList) ↔ P message.toList := by
  have hstrings : (failedWith message).strings = ["io/read", "io.cpp", message] := rfl
  have hname := h.ascii "io/read" (by decide)
  have hfile := h.ascii "io.cpp" (by decide)
  rw [hstrings, List.forall_mem_cons, List.forall_mem_cons, List.forall_mem_singleton]
  exact ⟨fun hall => hall.2.2, fun hmessage => ⟨hname, hfile, hmessage⟩⟩

theorem not_valid_ff : ¬ Valid [0xFF] := by
  rintro ⟨cs, hcs⟩
  cases cs with
  | nil => cases hcs
  | cons c cs =>
    have hseq := sequence_encodeChar c
    rw [encode_cons] at hcs
    generalize String.utf8EncodeChar c = bs at hseq hcs
    generalize c.toNat = n at hseq
    cases hseq with
    | one h =>
      obtain ⟨rfl, -⟩ := List.cons.inj hcs
      exact absurd h (by decide)
    | two low high =>
      obtain ⟨rfl, -⟩ := List.cons.inj hcs
      exact absurd high (by decide)
    | three low high =>
      obtain ⟨rfl, -⟩ := List.cons.inj hcs
      exact absurd high (by decide)
    | four low high =>
      obtain ⟨rfl, -⟩ := List.cons.inj hcs
      exact absurd high (by decide)

-- The message quotes the byte 0xFF.
theorem raw_byte_invalidates_report :
    (∀ s ∈ (failedWith "\u00ff").strings, IsBytes s.toList) ∧ ¬ ValidReport wholeDoubles (failedWith "\u00ff") := by
  have hbytes : IsBytes "\u00ff".toList := List.all_iff_forall_prop.mp (by decide)
  have hall := (failedWith_strings asciiBlind_isBytes "\u00ff").mpr hbytes
  refine ⟨hall, fun h => not_valid_ff ?_⟩
  exact (failedWith_strings asciiBlind_valid "\u00ff").mp (strings_valid wholeDoubles_formats hall h)

-- The message quotes the bytes 0xC3 0xA9 of an accented letter.
theorem encoded_message_keeps_report_valid : ValidReport wholeDoubles (failedWith "\u00c3\u00a9") := by
  have hbytes : IsBytes "\u00c3\u00a9".toList := List.all_iff_forall_prop.mp (by decide)
  refine (json_report_valid_iff wholeDoubles_formats _ ((failedWith_strings asciiBlind_isBytes _).mpr hbytes)).mpr ?_
  exact (failedWith_strings asciiBlind_valid _).mpr ⟨['\u00e9'], by decide⟩

end Gentest.Report
