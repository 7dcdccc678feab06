import Gentest.Codegen.ArtifactManifest
import Gentest.Codegen.OutputsApart

/-!
# The manifest is accepted as it was written

The text that is put together by hand is one JSON value, and its fields are those
the validator asks for: it accepts the text exactly when what it expects is what
the options say. Each check is read as an equation between the two.
-/

namespace Gentest.Codegen.ArtifactManifest

open Fallible

-- ---------------------------------------------------------------------------
-- The text as a value
-- ---------------------------------------------------------------------------

/-- No control characters but those that are escaped. -/
def Plain (s : String) : Prop := ∀ c ∈ s.toList, 0x20 ≤ c.toNat ∨ c ∈ ['\t', '\n', '\r']

theorem readUnits_escapeChar {c : Char} (h : 0x20 ≤ c.toNat ∨ c ∈ ['\t', '\n', '\r']) (rest : List Char) :
    Json.readUnits (escapeChar c ++ rest) = (Json.readUnits rest).map fun r => (.char c :: r.1, r.2) := by
  unfold escapeChar
  split
  case h_6 hslash hquote hnewline hreturn htab =>
    have hnone : c ∉ ['\t', '\n', '\r'] := by
      simp only [List.mem_cons, List.not_mem_nil, or_false]
      rintro (hc | hc | hc)
      · exact htab hc
      · exact hnewline hc
      · exact hreturn hc
    exact Json.readUnits_plain hquote hslash (Nat.not_lt.mpr (h.resolve_right hnone)) rest
  all_goals exact Json.readUnits_escaped _ _ rfl (by decide) rest

theorem readsChars_escapeString {s : String} (h : Plain s) : Json.ReadsChars (escapeString s.toList) s.toList := by
  intro rest
  have hunits : ∀ value : List Char, (∀ c ∈ value, 0x20 ≤ c.toNat ∨ c ∈ ['\t', '\n', '\r']) →
      Json.readUnits (escapeString value ++ '"' :: rest) = some (value.map .char, rest) := by
    intro value hvalue
    induction value with
    | nil => rfl
    | cons c value ih =>
      obtain ⟨hc, hrest⟩ := List.forall_mem_cons.mp hvalue
      have hcons : escapeString (c :: value) = escapeChar c ++ escapeString value := rfl
      rw [hcons, List.append_assoc, readUnits_escapeChar hc, ih hrest]
      rfl
  have hdecode : ∀ value : List Char, Json.decodeUnits (value.map .char) = some value := by
    intro value
    induction value with
    | nil => rfl
    | cons c value ih => simp [Json.decodeUnits, ih]
  rw [Json.readString, hunits s.toList h]
  simp [hdecode]

def FieldText.json : FieldText → Json
  | .text s => .str s.toList
  | .single s => .arr [.str s.toList]
  | .flag b => .bool b
  | .null => .null

def FieldText.PlainText : FieldText → Prop
  | .text s | .single s => Plain s
  | .flag _ | .null => True

theorem reads_quoted {s : String} (h : Plain s) : Json.Reads (quoted s) (.str s.toList) :=
  Json.reads_str (readsChars_escapeString h)

theorem FieldText.reads_write {value : FieldText} (h : value.PlainText) : Json.Reads value.write value.json := by
  cases value with
  | text s => exact reads_quoted h
  | single s =>
    have hblank : Json.Blank [] := nofun
    have hlast := Json.readsElements_last (reads_quoted h) hblank
    rw [List.append_nil] at hlast
    exact Json.reads_arr hlast
  | flag b => cases b <;> exact Json.reads_word (by simp [json])
  | null => exact Json.reads_word (by simp [json])

def bareName (name : String) : Bool := name.toList.all fun c => 0x20 ≤ c.toNat && escapeChar c == [c]

theorem readsChars_bare {name : String} (h : bareName name = true) : Json.ReadsChars name.toList name.toList := by
  have hall := List.all_eq_true.mp h
  have hsame : escapeString name.toList = name.toList := by
    unfold escapeString
    rw [List.flatMap_congr (g := fun c => [c]) fun c hc => ?_]
    · simp
    · have hc := hall c hc
      simp only [Bool.and_eq_true, beq_iff_eq] at hc
      exact hc.2
  have hplain : Plain name := fun c hc => by
    have hc := hall c hc
    simp only [Bool.and_eq_true, decide_eq_true_eq] at hc
    exact .inl hc.1
  have hread := readsChars_escapeString hplain
  rw [hsame] at hread
  exact hread

def fieldMember (field : String × FieldText) : List Char × Json := (field.1.toList, field.2.json)

/-- The fields have names and values that can be read back. -/
structure Readable (fields : Fields) : Prop where
  some : fields ≠ []
  names : fields.all (fun field => bareName field.1) = true
  values : ∀ field ∈ fields, field.2.PlainText

theorem blank_spaces (n : Nat) : Json.Blank (List.replicate n ' ') := by
  intro c hc
  rw [List.eq_of_mem_replicate hc]
  rfl

theorem fieldLine_eq (field : String × FieldText) :
    fieldLine field =
      List.replicate 6 ' ' ++ '"' :: (field.1.toList ++ '"' :: ':' :: (List.replicate 1 ' ' ++ field.2.write)) := by
  have hopen : "      \"".toList = List.replicate 6 ' ' ++ ['"'] := by decide
  have hcolon : "\": ".toList = ['"', ':', ' '] := by decide
  unfold fieldLine
  simp only [hopen, hcolon, List.append_assoc, List.cons_append, List.nil_append]
  rfl

theorem readsMember_fieldLine {field : String × FieldText} (hname : bareName field.1 = true)
    (hvalue : field.2.PlainText) : Json.ReadsMember (fieldLine field) (fieldMember field) :=
  ⟨_, _, _, blank_spaces 6, readsChars_bare hname, (FieldText.reads_write hvalue).blank (blank_spaces 1),
    fieldLine_eq field⟩

theorem entryText_eq (fields : Fields) :
    entryText fields = List.replicate 4 ' ' ++
      '{' :: '\n' :: (Json.commaLines (fields.map fieldLine) ++ List.replicate 4 ' ' ++ ['}']) := by
  have hopen : "    \x7b\n".toList = List.replicate 4 ' ' ++ ['{', '\n'] := by decide
  have hclose : "    \x7d".toList = List.replicate 4 ' ' ++ ['}'] := by decide
  unfold entryText
  simp only [hopen, hclose, List.append_assoc, List.cons_append, List.nil_append]

theorem reads_entryText {fields : Fields} (h : Readable fields) :
    Json.Reads (entryText fields) (.obj (fields.map fieldMember)) := by
  have hlines := Json.reads_obj_lines fieldLine fieldMember (blank_spaces 4) h.some
    fun field hfield => readsMember_fieldLine (List.all_eq_true.mp h.names field hfield) (h.values field hfield)
  rw [entryText_eq]
  exact hlines.blank (blank_spaces 4)

def manifestJson (sources artifacts : List Fields) : Object :=
  [("schema".toList, .str schema.toList),
    ("sources".toList, .arr (sources.map fun fields => .obj (fields.map fieldMember))),
    ("artifacts".toList, .arr (artifacts.map fun fields => .obj (fields.map fieldMember)))]

/-- A member of the manifest, with its entries on lines of their own. -/
def listText (name : String) (entries : List Fields) : List Char :=
  List.replicate 2 ' ' ++ '"' :: (name.toList ++ '"' :: ':' :: (List.replicate 1 ' ' ++ '[' :: '\n' ::
    (Json.commaLines (entries.map entryText) ++ List.replicate 2 ' ' ++ [']'])))

theorem readsMember_listText {name : String} {entries : List Fields} (hname : bareName name = true)
    (h : ∀ fields ∈ entries, Readable fields) :
    Json.ReadsMember (listText name entries)
      (name.toList, .arr (entries.map fun fields => .obj (fields.map fieldMember))) := by
  have hlist := Json.reads_arr_lines entryText (fun fields : Fields => .obj (fields.map fieldMember)) (blank_spaces 2)
    fun fields hfields => reads_entryText (h fields hfields)
  exact ⟨_, _, _, blank_spaces 2, readsChars_bare hname, hlist.blank (blank_spaces 1), rfl⟩

def schemaText : List Char :=
  List.replicate 2 ' ' ++ '"' :: ("schema".toList ++ '"' :: ':' :: (List.replicate 1 ' ' ++ '"' :: (schema.toList ++ ['"'])))

theorem readsMember_schemaText : Json.ReadsMember schemaText ("schema".toList, .str schema.toList) :=
  ⟨_, _, _, blank_spaces 2, readsChars_bare (by decide),
    (Json.reads_str (readsChars_bare (by decide))).blank (blank_spaces 1), rfl⟩

theorem manifestText_eq (sources artifacts : List Fields) :
    manifestText sources artifacts =
      '{' :: '\n' :: (Json.commaLines [schemaText, listText "sources" sources, listText "artifacts" artifacts] ++ [] ++
        ['}']) ++ ['\n'] := by
  have hopen : "\x7b\n  \"schema\": \"".toList = '{' :: '\n' :: (List.replicate 2 ' ' ++ '"' ::
      ("schema".toList ++ '"' :: ':' :: (List.replicate 1 ' ' ++ ['"']))) := by decide
  have hsources : "\",\n  \"sources\": [\n".toList = '"' :: ',' :: '\n' :: (List.replicate 2 ' ' ++ '"' ::
      ("sources".toList ++ '"' :: ':' :: (List.replicate 1 ' ' ++ ['[', '\n']))) := by decide
  have hartifacts : "  ],\n  \"artifacts\": [\n".toList = List.replicate 2 ' ' ++ ']' :: ',' :: '\n' ::
      (List.replicate 2 ' ' ++ '"' :: ("artifacts".toList ++ '"' :: ':' :: (List.replicate 1 ' ' ++ ['[', '\n']))) := by
    decide
  have hclose : "  ]\n\x7d\n".toList = List.replicate 2 ' ' ++ [']', '\n', '}', '\n'] := by decide
  unfold manifestText schemaText listText
  simp only [hopen, hsources, hartifacts, hclose, Json.commaLines, List.append_assoc, List.cons_append, List.nil_append]

theorem read_manifestText {sources artifacts : List Fields} (hsources : ∀ fields ∈ sources, Readable fields)
    (hartifacts : ∀ fields ∈ artifacts, Readable fields) :
    Json.read (manifestText sources artifacts) = some (.obj (manifestJson sources artifacts)) := by
  have hmembers : ∀ item ∈ [(schemaText, ("schema".toList, Json.str schema.toList)),
      (listText "sources" sources, ("sources".toList, .arr (sources.map fun fields => .obj (fields.map fieldMember)))),
      (listText "artifacts" artifacts,
        ("artifacts".toList, .arr (artifacts.map fun fields => .obj (fields.map fieldMember))))],
      Json.ReadsMember item.1 item.2 := by
    simp only [List.forall_mem_cons, List.not_mem_nil, false_implies, implies_true, and_true]
    exact ⟨readsMember_schemaText, readsMember_listText (by decide) hsources,
      readsMember_listText (by decide) hartifacts⟩
  have hblank : Json.Blank [] := nofun
  rw [manifestText_eq]
  exact Json.read_of_reads (Json.reads_obj_lines Prod.fst Prod.snd hblank (List.cons_ne_nil _ _) hmembers) Json.blank_lf

-- ---------------------------------------------------------------------------
-- What each check asks for
-- ---------------------------------------------------------------------------

def field? (fields : Fields) (name : String) : Option FieldText := (fields.reverse.find? (·.1 = name)).map Prod.snd

theorem get_fields (fields : Fields) (name : String) :
    get (fields.map fieldMember) name = (field? fields name).map FieldText.json := by
  have hname : ∀ field : String × FieldText, ((fieldMember field).1 = name.toList) = (field.1 = name) := fun field =>
    propext String.toList_inj
  rw [get, field?, ← List.map_reverse, List.find?_map, Option.map_map, Option.map_map]
  simp only [Function.comp_def, hname]
  rfl

section

variable {object : Object} {fields : Fields} {name location : String}

theorem then_ok {x : Except String Unit} {y : Except String β} {b : β} :
    (x >>= fun _ => y) = .ok b ↔ x = .ok () ∧ y = .ok b := by
  rw [bind_ok]
  exact ⟨fun ⟨_, hx, hy⟩ => ⟨hx, hy⟩, fun ⟨hx, hy⟩ => ⟨(), hx, hy⟩⟩

theorem ok_bind {f : α → Except String β} {a : α} : ((Except.ok a : Except String α) >>= f) = f a := rfl

theorem checkWhen_ok {c : Prop} [Decidable c] {check : Except String Unit} :
    checkWhen c check = .ok () ↔ (c → check = .ok ()) := by
  unfold checkWhen
  split
  · rename_i hc
    exact ⟨fun h _ => h, fun h => h hc⟩
  · rename_i hc
    exact ⟨fun _ hc' => absurd hc' hc, fun _ => rfl⟩

theorem expectEqual_ok {expected actual : String} : expectEqual location expected actual = .ok () ↔ actual = expected := by
  unfold expectEqual
  split
  · simp [*]
  · simp [*]

theorem jsonStringField_ok {s : String} :
    jsonStringField object name location = .ok s ↔ get object name = some (.str s.toList) := by
  unfold jsonStringField
  split
  · simp [*]
  · rename_i chars hget
    rw [hget, Except.ok.injEq, Option.some.injEq, Json.str.injEq]
    exact ⟨fun h => by rw [← h, String.toList_ofList], fun h => by rw [h, String.ofList_toList]⟩
  · rename_i hnot hget
    refine ⟨nofun, fun heq => ?_⟩
    rw [heq, Option.some.injEq] at hget
    exact (hnot _ hget.symm).elim

theorem expectStringField_ok {expected : String} :
    expectStringField object name location expected = .ok () ↔ get object name = some (.str expected.toList) := by
  rw [expectStringField, bind_ok]
  simp only [jsonStringField_ok, expectEqual_ok, exists_eq_right]

theorem jsonBoolField_ok {b : Bool} : jsonBoolField object name location = .ok b ↔ get object name = some (.bool b) := by
  unfold jsonBoolField
  split
  · simp [*]
  · rename_i hget
    rw [hget, Except.ok.injEq, Option.some.injEq, Json.bool.injEq]
  · rename_i hnot hget
    refine ⟨nofun, fun heq => ?_⟩
    rw [heq, Option.some.injEq] at hget
    exact (hnot _ hget.symm).elim

theorem expectBoolField_ok {expected : Bool} :
    expectBoolField object name location expected = .ok () ↔ get object name = some (.bool expected) := by
  have hspelling : ∀ actual : Bool, (if actual then "true" else "false") = (if expected then "true" else "false") ↔
      actual = expected := by
    intro actual
    cases actual <;> cases expected <;> decide
  rw [expectBoolField, bind_ok]
  simp only [jsonBoolField_ok, expectEqual_ok, hspelling, exists_eq_right]

theorem jsonNullField_ok : jsonNullField object name location = .ok () ↔ get object name = some .null := by
  unfold jsonNullField
  split
  · simp [*]
  · simp [*]
  · rename_i hnot hget
    refine ⟨nofun, fun heq => ?_⟩
    rw [heq, Option.some.injEq] at hget
    exact (hnot hget.symm).elim

theorem jsonSingleStringArrayField_ok {s : String} :
    jsonSingleStringArrayField object name location = .ok s ↔ get object name = some (.arr [.str s.toList]) := by
  unfold jsonSingleStringArrayField
  split
  · rename_i chars hget
    rw [hget, Except.ok.injEq, Option.some.injEq, Json.arr.injEq, List.cons.injEq, Json.str.injEq]
    refine ⟨fun h => ⟨by rw [← h, String.toList_ofList], rfl⟩, fun h => by rw [h.1, String.ofList_toList]⟩
  · rename_i element hnot hget
    refine ⟨nofun, fun heq => ?_⟩
    simp only [heq, Option.some.injEq, Json.arr.injEq, List.cons.injEq, and_true] at hget
    exact (hnot _ hget.symm).elim
  · rename_i elements _ hnot hget
    refine ⟨nofun, fun heq => ?_⟩
    simp only [heq, Option.some.injEq, Json.arr.injEq] at hget
    exact (hnot _ hget.symm).elim
  · rename_i hnot
    exact ⟨nofun, fun heq => (hnot _ heq).elim⟩

theorem expectSingleField_ok {expected : String} :
    expectSingleField object name location expected = .ok () ↔ get object name = some (.arr [.str expected.toList]) := by
  rw [expectSingleField, bind_ok]
  simp only [jsonSingleStringArrayField_ok, expectEqual_ok, exists_eq_right]

theorem get_fields_iff {fields : Fields} {name : String} {value : FieldText} :
    get (fields.map fieldMember) name = some value.json ↔ field? fields name = some value := by
  have hinj : ∀ v : FieldText, v.json = value.json ↔ v = value := by
    intro v
    cases v <;> cases value <;> simp [FieldText.json, String.toList_inj]
  rw [get_fields]
  cases field? fields name with
  | none => simp
  | some v => simp [hinj]

theorem expectStringField_fields {expected : String} :
    expectStringField (fields.map fieldMember) name location expected = .ok () ↔ field? fields name = some (.text expected) := by
  rw [expectStringField_ok, ← get_fields_iff, FieldText.json]

theorem jsonStringField_fields {s : String} :
    jsonStringField (fields.map fieldMember) name location = .ok s ↔ field? fields name = some (.text s) := by
  rw [jsonStringField_ok, ← get_fields_iff, FieldText.json]

theorem expectBoolField_fields {expected : Bool} :
    expectBoolField (fields.map fieldMember) name location expected = .ok () ↔ field? fields name = some (.flag expected) := by
  rw [expectBoolField_ok, ← get_fields_iff, FieldText.json]

theorem jsonNullField_fields :
    jsonNullField (fields.map fieldMember) name location = .ok () ↔ field? fields name = some .null := by
  rw [jsonNullField_ok, ← get_fields_iff, FieldText.json]

theorem expectSingleField_fields {expected : String} :
    expectSingleField (fields.map fieldMember) name location expected = .ok () ↔
      field? fields name = some (.single expected) := by
  rw [expectSingleField_ok, ← get_fields_iff, FieldText.json]

theorem expectGiven_fields {given : Option Bool} :
    expectGiven (fields.map fieldMember) name location given = .ok () ↔
      ∀ expected ∈ given, field? fields name = some (.flag expected) := by
  cases given with
  | none => exact ⟨fun _ => nofun, fun _ => rfl⟩
  | some expected =>
    rw [expectGiven, expectBoolField_fields]
    simp

theorem validateModuleScan_fields {options : ArtifactManifestValidationOptions} :
    validateModuleScan options (fields.map fieldMember) location = .ok () ↔
      ∃ expected, options.expectedRequiresModuleScan = some expected ∧
        field? fields "requires_module_scan" = some (.flag expected) := by
  unfold validateModuleScan
  cases options.expectedRequiresModuleScan with
  | none => simp
  | some expected =>
    rw [expectBoolField_fields]
    simp

theorem validateFingerprint_fields :
    validateFingerprint (fields.map fieldMember) location = .ok () ↔
      ∃ fingerprint, field? fields "compile_context_fingerprint" = some (.text fingerprint) ∧
        isSha256Fingerprint fingerprint = true := by
  rw [validateFingerprint, bind_ok]
  simp only [jsonStringField_fields]
  refine exists_congr fun fingerprint => and_congr_right fun _ => ?_
  split
  · rename_i hsha
    simp [hsha]
  · rename_i hsha
    simp [hsha]

end

-- ---------------------------------------------------------------------------
-- Entries
-- ---------------------------------------------------------------------------

variable {paths : GenericPaths} {opts : ManifestOptions} {host : ValidationHost}
  {options : ArtifactManifestValidationOptions} {idx : Nat}

theorem validateSourceManifestEntry_fields {fields : Fields} :
    validateSourceManifestEntry options (fields.map fieldMember) idx = .ok () ↔
      field? fields "source" = some (.text (options.expectedSources.getD idx "")) ∧
      field? fields "kind" = some (.text (options.expectedSourceKinds.getD idx "")) ∧
      field? fields "compile_context_id" = some (.text (options.expectedCompileContextIds.getD idx "")) ∧
      (additiveHeaderRegistration options = true →
        field? fields "scan_source" = some (.text (options.expectedSources.getD idx "")) ∧
        field? fields "scan_slot_kind" = some (.text (options.expectedScanSlotKinds.getD idx "")) ∧
        ∃ fingerprint, field? fields "compile_context_fingerprint" = some (.text fingerprint) ∧
          isSha256Fingerprint fingerprint = true) ∧
      (options.expectedSourceRegistrationOutputs ≠ [] →
        field? fields "registration_output" = some (.text (options.expectedSourceRegistrationOutputs.getD idx ""))) := by
  simp only [validateSourceManifestEntry, validateScanSlot, then_ok, expectStringField_fields, validateFingerprint_fields,
    checkWhen_ok]

theorem validateArtifactManifestEntry_fields {fields : Fields} :
    validateArtifactManifestEntry options (fields.map fieldMember) idx = .ok () ↔
      field? fields "path" = some (.text (options.expectedRegistrationOutputs.getD idx "")) ∧
      field? fields "role" = some (.text options.expectedArtifactRole) ∧
      field? fields "compile_as" = some (.text options.expectedCompileAs) ∧
      field? fields "owner_source" = some (.text (options.expectedSources.getD idx "")) ∧
      field? fields "target_attachment" = some (.text options.expectedTargetAttachment) ∧
      field? fields "compile_context_id" = some (.text (options.expectedCompileContextIds.getD idx "")) ∧
      (∃ expected, options.expectedRequiresModuleScan = some expected ∧
        field? fields "requires_module_scan" = some (.flag expected)) ∧
      (∀ expected ∈ options.expectedIncludesAuthoredSource,
        field? fields "includes_authored_source" = some (.flag expected)) ∧
      (∀ expected ∈ options.expectedReplacesAuthoredSource,
        field? fields "replaces_authored_source" = some (.flag expected)) ∧
      (¬additiveHeaderRegistration options = true →
        field? fields "generated_headers" = some (.single (options.expectedHeaders.getD idx "")) ∧
        field? fields "generated_include_dirs" = some (.single options.expectedIncludeDir)) ∧
      field? fields "depfile" = some (.text options.expectedDepfile) := by
  simp only [validateArtifactManifestEntry, validateHeader, then_ok, expectStringField_fields, expectSingleField_fields,
    validateModuleScan_fields, expectGiven_fields, checkWhen_ok]

theorem validateAdditiveManifestEntryPair_fields {source artifact : Fields} :
    validateAdditiveManifestEntryPair options (source.map fieldMember) (artifact.map fieldMember) idx = .ok () ↔
      (additiveHeaderRegistration options = true →
        ∃ fingerprint, field? source "compile_context_fingerprint" = some (.text fingerprint) ∧
          field? artifact "compile_context_fingerprint" = some (.text fingerprint)) := by
  simp only [validateAdditiveManifestEntryPair, checkWhen_ok, bind_ok, jsonStringField_fields, expectStringField_fields]

/-- The module that is written is the one the source declares. -/
theorem validateNamedModule_fields {contexts : String → Option ArtifactManifestSourceScanContext}
    {source artifact : Fields} :
    validateNamedModule host options contexts (source.map fieldMember) (artifact.map fieldMember) idx = .ok () ↔
      ∃ name, field? source "module" = some (.text name) ∧ name ≠ "" ∧
        discoveredModule host options contexts (options.expectedSources.getD idx "") = some name ∧
        field? source "partition" = some .null ∧
        (options.expectedModules ≠ [] → options.expectedModules.getD idx "" = name) ∧
        field? artifact "module" = some (.text name) ∧
        (options.expectedCompileAs = "cxx-module-importer-registration" →
          field? artifact "imports" = some (.single name)) := by
  rw [validateNamedModule, bind_ok]
  refine exists_congr fun name => and_congr jsonStringField_fields ?_
  rw [then_ok, checkWhen_ok]
  refine and_congr ⟨fun h hempty => (nomatch h hempty), fun h hempty => absurd hempty h⟩ ?_
  cases discoveredModule host options contexts (options.expectedSources.getD idx "") with
  | none => simp
  | some discovered =>
    simp only [validateImporter, then_ok, expectEqual_ok, jsonNullField_fields, checkWhen_ok,
      expectStringField_fields, expectSingleField_fields, Option.some.injEq]
    by_cases hnone : options.expectedModules = []
    · simp only [hnone, ne_eq, not_true_eq_false, false_implies, if_true, true_and]
      constructor
      · rintro ⟨rfl, hrest⟩
        exact ⟨rfl, hrest⟩
      · rintro ⟨rfl, hrest⟩
        exact ⟨rfl, hrest⟩
    · simp only [hnone, ne_eq, not_false_eq_true, true_implies, if_false]
      constructor
      · rintro ⟨rfl, hnull, hexpected, hrest⟩
        exact ⟨rfl, hnull, hexpected.symm, hexpected ▸ hrest⟩
      · rintro ⟨rfl, hnull, hexpected, hrest⟩
        exact ⟨rfl, hnull, hexpected.symm, hexpected.symm ▸ hrest⟩

theorem validateModuleManifestEntryPair_fields {contexts : String → Option ArtifactManifestSourceScanContext}
    {source artifact : Object} :
    validateModuleManifestEntryPair host options contexts source artifact idx = .ok () ↔
      (options.expectedSourceKinds.getD idx "" ≠ "cxx-header-declaration-registration" →
        validateNamedModule host options contexts source artifact idx = .ok ()) := checkWhen_ok

theorem forM_ok {f : Nat → Except String Unit} {idxs : List Nat} :
    idxs.forM f = .ok () ↔ ∀ idx ∈ idxs, f idx = .ok () := by
  induction idxs with
  | nil => exact ⟨fun _ => nofun, fun _ => rfl⟩
  | cons idx idxs ih =>
    have hcons : (idx :: idxs).forM f = (f idx >>= fun _ => idxs.forM f) := List.forM_cons ..
    rw [hcons, then_ok, ih, List.forall_mem_cons]

-- ---------------------------------------------------------------------------
-- Strings without control characters
-- ---------------------------------------------------------------------------

theorem Plain.of_chars {a b : String} (hb : Plain b) (h : ∀ c ∈ a.toList, c ∈ b.toList) : Plain a := fun c hc =>
  hb c (h c hc)

theorem Plain.append {a b : String} (ha : Plain a) (hb : Plain b) : Plain (a ++ b) := by
  intro c hc
  rw [String.toList_append] at hc
  exact (List.mem_append.mp hc).elim (ha c) (hb c)

theorem Plain.generic {path : String} (h : Plain path) : Plain (paths.genericString path) := h.of_chars (paths.chars path)

theorem Plain.fileName {path : String} (h : Plain path) : Plain (fileName path) := by
  refine h.of_chars fun c hc => ?_
  rw [Codegen.fileName, String.toList_ofList, List.mem_reverse] at hc
  exact List.mem_reverse.mp ((List.takeWhile_sublist _).subset hc)

theorem Plain.replaceExtension {name extension : String} (h : Plain name) (hext : Plain extension) :
    Plain (replaceExtension name extension) := by
  unfold Codegen.replaceExtension
  dsimp only
  split
  · exact h.append hext
  · refine Plain.append (h.of_chars fun c hc => ?_) hext
    rw [String.toList_ofList] at hc
    exact (List.take_sublist _ _).subset hc

theorem Plain.joinPath {dir name : String} (hdir : Plain dir) (hname : Plain name) : Plain (joinPath dir name) := by
  unfold Codegen.joinPath
  split
  · exact hdir.append hname
  · exact (hdir.append (by simp [Plain])).append hname

theorem Plain.parentPath {path : String} (h : Plain path) : Plain (parentPath path) := by
  refine h.of_chars fun c hc => ?_
  unfold Codegen.parentPath at hc
  dsimp only at hc
  split at hc
  · rw [String.toList_ofList] at hc
    exact List.mem_reverse.mp ((List.dropWhile_sublist _).subset ((List.take_sublist _ _).subset hc))
  · rw [String.toList_ofList, List.mem_reverse] at hc
    exact List.mem_reverse.mp ((List.dropWhile_sublist _).subset ((List.dropWhile_sublist _).subset hc))

theorem plain_getD {values : List String} {default : String} (h : ∀ s ∈ values, Plain s) (hdefault : Plain default)
    (idx : Nat) : Plain (values.getD idx default) := by
  rw [List.getD_eq_getElem?_getD]
  cases hget : values[idx]? with
  | none => exact hdefault
  | some s => exact h s (List.mem_of_getElem? hget)

/-- The strings of the options have no control characters but those that are
escaped. -/
structure PlainOptions (opts : ManifestOptions) : Prop where
  sources : ∀ s ∈ opts.sources, Plain s
  headers : ∀ s ∈ opts.tuOutputHeaders, Plain s
  outputDir : Plain opts.tuOutputDir
  moduleOutputs : ∀ s ∈ opts.moduleRegistrationOutputs, Plain s
  textualOutputs : ∀ s ∈ opts.textualRegistrationOutputs, Plain s
  contextIds : ∀ s ∈ opts.compileContextIds, Plain s
  fingerprints : ∀ s ∈ opts.compileContextFingerprints, Plain s
  slotKinds : ∀ s ∈ opts.scanSlotKinds, Plain s
  modules : ∀ entry ∈ opts.moduleInterfaceNamesBySource, Plain entry.2
  depfile : ∀ s ∈ opts.depfilePath, Plain s

theorem plain_empty : Plain "" := by simp [Plain]

section

variable (h : PlainOptions opts) (idx : Nat)

include h

theorem PlainOptions.source : Plain (opts.source idx) := plain_getD h.sources plain_empty idx

theorem PlainOptions.contextId : Plain (compileContextIdFor opts idx) := by
  unfold compileContextIdFor
  split
  · exact plain_getD h.contextIds plain_empty idx
  · exact h.source idx

theorem PlainOptions.moduleName : Plain (moduleName opts idx) := by
  unfold ArtifactManifest.moduleName
  cases hlookup : opts.moduleInterfaceNamesBySource.lookup (opts.source idx) with
  | none => exact plain_empty
  | some name =>
    obtain ⟨before, after, hentries, -⟩ := List.lookup_eq_some_iff.mp hlookup
    exact h.modules (opts.source idx, name) (by simp [hentries])

theorem PlainOptions.headerOutput : Plain (headerOutput opts idx) := by
  unfold ArtifactManifest.headerOutput resolveTuHeaderOutput
  split
  · exact plain_getD h.headers plain_empty idx
  · exact h.outputDir.joinPath ((h.source idx).fileName.replaceExtension (by simp [Plain]))

theorem PlainOptions.includeDir : Plain (includeDir paths opts idx) := by
  unfold ArtifactManifest.includeDir
  dsimp only
  split
  · simp [Plain]
  · exact (h.headerOutput idx).parentPath.generic

theorem PlainOptions.depfileText : Plain (depfileText paths opts) := by
  unfold ArtifactManifest.depfileText
  cases hdepfile : opts.depfilePath with
  | none => exact plain_empty
  | some depfile => exact (h.depfile depfile hdepfile).generic

theorem PlainOptions.moduleSource : Readable (moduleSource paths opts idx) where
  some := List.cons_ne_nil _ _
  names := by simp only [ArtifactManifest.moduleSource, List.all_cons, List.all_nil]; decide
  values := by
    simp only [ArtifactManifest.moduleSource, List.forall_mem_cons, FieldText.PlainText, List.not_mem_nil,
      false_implies, implies_true, and_true, true_and]
    exact ⟨(h.source idx).generic, by simp [Plain], h.moduleName idx, h.contextId idx,
      (plain_getD h.moduleOutputs plain_empty idx).generic⟩

theorem PlainOptions.moduleArtifact : Readable (moduleArtifact paths opts idx) where
  some := List.cons_ne_nil _ _
  names := by simp only [ArtifactManifest.moduleArtifact, List.all_cons, List.all_nil]; decide
  values := by
    simp only [ArtifactManifest.moduleArtifact, List.forall_mem_cons, FieldText.PlainText, List.not_mem_nil,
      false_implies, implies_true, and_true, true_and]
    exact ⟨(plain_getD h.moduleOutputs plain_empty idx).generic, by simp [Plain], by simp [Plain], h.moduleName idx,
      h.moduleName idx, (h.source idx).generic, by simp [Plain], h.contextId idx, h.includeDir idx,
      (h.headerOutput idx).generic, h.depfileText⟩

theorem PlainOptions.textualSource : Readable (textualSource paths opts idx) where
  some := List.cons_ne_nil _ _
  names := by simp only [ArtifactManifest.textualSource, List.all_cons, List.all_nil]; decide
  values := by
    simp only [ArtifactManifest.textualSource, List.forall_mem_cons, FieldText.PlainText, List.not_mem_nil,
      false_implies, implies_true, and_true]
    exact ⟨(h.source idx).generic, by simp [Plain], (h.source idx).generic,
      plain_getD h.slotKinds (by simp [Plain]) idx, h.contextId idx, plain_getD h.fingerprints plain_empty idx,
      (plain_getD h.textualOutputs plain_empty idx).generic⟩

theorem PlainOptions.textualArtifact : Readable (textualArtifact paths opts idx) where
  some := List.cons_ne_nil _ _
  names := by simp only [ArtifactManifest.textualArtifact, List.all_cons, List.all_nil]; decide
  values := by
    simp only [ArtifactManifest.textualArtifact, List.forall_mem_cons, FieldText.PlainText, List.not_mem_nil,
      false_implies, implies_true, and_true, true_and]
    exact ⟨(plain_getD h.textualOutputs plain_empty idx).generic, by simp [Plain], by simp [Plain],
      (h.source idx).generic, by simp [Plain], h.contextId idx, plain_getD h.fingerprints plain_empty idx, h.depfileText⟩

end

-- ---------------------------------------------------------------------------
-- The written manifest
-- ---------------------------------------------------------------------------

/-- `llvm::json::parse` takes a JSON text for what it says. -/
def ValidationHost.ParsesFaithfully (host : ValidationHost) : Prop :=
  ∀ text json, Json.read text = some json → host.parse text = .ok json

/-- What is checked of the entries of one source. -/
def EntryAccepted (host : ValidationHost) (options : ArtifactManifestValidationOptions)
    (contexts : String → Option ArtifactManifestSourceScanContext) (source artifact : Fields) (idx : Nat) : Prop :=
  validateSourceManifestEntry options (source.map fieldMember) idx = .ok () ∧
  validateArtifactManifestEntry options (artifact.map fieldMember) idx = .ok () ∧
  validateAdditiveManifestEntryPair options (source.map fieldMember) (artifact.map fieldMember) idx = .ok () ∧
  validateModuleManifestEntryPair host options contexts (source.map fieldMember) (artifact.map fieldMember) idx = .ok ()

theorem readManifest_written {sources artifacts : List Fields} (hparse : host.ParsesFaithfully)
    (hfile : host.getFile options.manifest = .ok (manifestText sources artifacts))
    (hsources : ∀ fields ∈ sources, Readable fields) (hartifacts : ∀ fields ∈ artifacts, Readable fields) :
    readManifest host options = .ok (manifestJson sources artifacts) := by
  rw [readManifest, hfile]
  have hread := hparse _ _ (read_manifestText hsources hartifacts)
  simp only [Except.mapError, bind, Except.bind, hread]

theorem manifestJson_fields (options : ArtifactManifestValidationOptions) (sources artifacts : List Fields) :
    validateSchema options (manifestJson sources artifacts) = .ok () ∧
    entriesOf options (manifestJson sources artifacts) "sources" =
      .ok (sources.map fun fields => .obj (fields.map fieldMember)) ∧
    entriesOf options (manifestJson sources artifacts) "artifacts" =
      .ok (artifacts.map fun fields => .obj (fields.map fieldMember)) := by
  have hschema : jsonStringField (manifestJson sources artifacts) "schema" "<root>" = .ok schema :=
    jsonStringField_ok.mpr rfl
  refine ⟨?_, rfl, rfl⟩
  rw [validateSchema, hschema]
  simp [Except.mapError, bind, Except.bind]

theorem validateEntryCount_ok {kind : String} {entries : List Json} :
    validateEntryCount options kind entries = .ok () ↔ entries.length = options.expectedSources.length := by
  unfold validateEntryCount
  split
  · simp [*]
  · simp [*]

theorem validateEntry_written {n : Nat} {sources artifacts : Nat → Fields}
    {contexts : String → Option ArtifactManifestSourceScanContext} (hidx : idx < n) :
    validateEntry host options contexts
        (((List.range n).map sources).map fun fields => .obj (fields.map fieldMember))
        (((List.range n).map artifacts).map fun fields => .obj (fields.map fieldMember)) idx = .ok () ↔
      EntryAccepted host options contexts (sources idx) (artifacts idx) idx := by
  have hget : ∀ fields : Nat → Fields,
      (((List.range n).map fields).map fun fields => Json.obj (fields.map fieldMember)).getD idx .null =
        .obj ((fields idx).map fieldMember) := by
    intro fields
    rw [List.getD_eq_getElem?_getD, List.getElem?_map, List.getElem?_map, List.getElem?_range hidx]
    rfl
  have hobject : ∀ name (members : Object), asObject name idx (.obj members) = .ok members := fun _ _ => rfl
  rw [validateEntry, hget, hget, hobject]
  simp only [EntryAccepted, hobject, bind, Except.bind]
  exact (then_ok (b := ())).trans (and_congr_right fun _ => then_ok.trans (and_congr_right fun _ => then_ok))

theorem validate_written {n : Nat} {sources artifacts : Nat → Fields} (hparse : host.ParsesFaithfully)
    (hfile : host.getFile options.manifest =
      .ok (manifestText ((List.range n).map sources) ((List.range n).map artifacts)))
    (hsources : ∀ idx, Readable (sources idx)) (hartifacts : ∀ idx, Readable (artifacts idx)) :
    validateArtifactManifest host options = .ok () ↔
      validateExpectedCounts options = .ok () ∧ options.expectedSources.length = n ∧
      ∃ contexts, sourceScanContexts host options = .ok contexts ∧
        (∀ idx < n, EntryAccepted host options contexts (sources idx) (artifacts idx) idx) ∧
        touchValidationStamp host options = .ok () := by
  have hreadable : ∀ (fields : Nat → Fields), (∀ idx, Readable (fields idx)) →
      ∀ entry ∈ (List.range n).map fields, Readable entry := by
    intro fields hfields entry hentry
    obtain ⟨idx, _, rfl⟩ := List.mem_map.mp hentry
    exact hfields idx
  have hread := readManifest_written hparse hfile (hreadable sources hsources) (hreadable artifacts hartifacts)
  obtain ⟨hschema, hlist, hlist'⟩ := manifestJson_fields options ((List.range n).map sources)
    ((List.range n).map artifacts)
  rw [validateArtifactManifest, then_ok]
  refine and_congr_right fun _ => ?_
  rw [hread, ok_bind, hschema, ok_bind, hlist, ok_bind, hlist', ok_bind, then_ok, then_ok, validateEntryCount_ok,
    validateEntryCount_ok, bind_ok]
  simp only [List.length_map, List.length_range, then_ok, forM_ok]
  constructor
  · rintro ⟨hn, -, contexts, hcontexts, hentries, htouch⟩
    refine ⟨hn.symm, contexts, hcontexts, fun idx hidx => ?_, htouch⟩
    exact (validateEntry_written hidx).mp (hentries idx (List.mem_range.mpr (hn ▸ hidx)))
  · rintro ⟨hn, contexts, hcontexts, hentries, htouch⟩
    refine ⟨hn.symm, hn.symm, contexts, hcontexts, fun idx hidx => ?_, htouch⟩
    have hlt : idx < n := hn ▸ List.mem_range.mp hidx
    exact (validateEntry_written hlt).mpr (hentries idx hlt)

theorem validateExpectedListCount_ok {name : String} {values : List String} {count : Nat} :
    validateExpectedListCount name values count = .ok () ↔ values.length = count := by
  unfold validateExpectedListCount
  split
  · simp [*]
  · simp [*]

def Slots (n : Nat) (value : Nat → String) : List String := (List.range n).map value

theorem eq_slots_iff {values : List String} {n : Nat} {value : Nat → String} :
    values = Slots n value ↔ values.length = n ∧ ∀ idx < n, values.getD idx "" = value idx := by
  constructor
  · rintro rfl
    refine ⟨by simp [Slots], fun idx hidx => ?_⟩
    rw [List.getD_eq_getElem?_getD, Slots, List.getElem?_map, List.getElem?_range hidx]
    rfl
  · rintro ⟨hlength, hvalues⟩
    refine List.ext_getElem (by simp [Slots, hlength]) fun idx hidx hidx' => ?_
    have hvalue := hvalues idx (hlength ▸ hidx)
    rw [List.getD_eq_getElem?_getD, List.getElem?_eq_getElem hidx, Option.getD_some] at hvalue
    simp [Slots, hvalue]

/-- Either nothing is expected or one value for each source. -/
theorem given_slots_iff {values : List String} {n : Nat} {value : Nat → String} :
    (values = [] ∨ values = Slots n value) ↔
      (values ≠ [] → values.length = n) ∧ (∀ idx < n, values ≠ [] → values.getD idx "" = value idx) := by
  by_cases hvalues : values = []
  · simp [hvalues]
  · simp only [hvalues, false_or, ne_eq, not_false_eq_true, true_implies]
    exact eq_slots_iff

-- ---------------------------------------------------------------------------
-- The two modes
-- ---------------------------------------------------------------------------

/-- Sources that are registered by importers of their modules. -/
structure ModuleMode (opts : ManifestOptions) : Prop extends PlainOptions opts where
  manifest : opts.artifactManifestPath ≠ ""
  some : opts.sources ≠ []
  outputs : opts.moduleRegistrationOutputs.length = opts.sources.length
  only : opts.textualRegistrationOutputs = []
  named : ∀ idx < opts.sources.length, moduleName opts idx ≠ ""

/-- Sources whose headers are registered, each with its fingerprint. -/
structure TextualMode (opts : ManifestOptions) : Prop extends PlainOptions opts where
  manifest : opts.artifactManifestPath ≠ ""
  some : opts.sources ≠ []
  outputs : opts.textualRegistrationOutputs.length = opts.sources.length
  only : opts.moduleRegistrationOutputs = []
  hashed : opts.compileContextFingerprints.length = opts.sources.length
  hashes : ∀ fingerprint ∈ opts.compileContextFingerprints, isSha256Fingerprint fingerprint = true

/-- Every expected value is that of the option it describes. -/
structure DescribesModules (paths : GenericPaths) (opts : ManifestOptions) (options : ArtifactManifestValidationOptions) :
    Prop where
  sources : options.expectedSources = Slots opts.sources.length fun idx => paths.genericString (opts.source idx)
  kinds : options.expectedSourceKinds = Slots opts.sources.length fun _ => "module-primary-interface"
  outputs : options.expectedRegistrationOutputs =
    Slots opts.sources.length fun idx => paths.genericString (opts.moduleRegistrationOutputs.getD idx "")
  sourceOutputs : options.expectedSourceRegistrationOutputs = [] ∨ options.expectedSourceRegistrationOutputs =
    Slots opts.sources.length fun idx => paths.genericString (opts.moduleRegistrationOutputs.getD idx "")
  contextIds : options.expectedCompileContextIds = Slots opts.sources.length (compileContextIdFor opts)
  headers : options.expectedHeaders = Slots opts.sources.length fun idx => paths.genericString (headerOutput opts idx)
  includeDir : ∀ idx < opts.sources.length, options.expectedIncludeDir = includeDir paths opts idx
  modules : options.expectedModules = [] ∨ options.expectedModules = Slots opts.sources.length (moduleName opts)
  depfile : options.expectedDepfile = depfileText paths opts
  role : options.expectedArtifactRole = "registration"
  compileAs : options.expectedCompileAs = "cxx-module-importer-registration"
  attachment : options.expectedTargetAttachment = "private-generated-source"
  scan : options.expectedRequiresModuleScan = some true
  includes : options.expectedIncludesAuthoredSource = none
  replaces : options.expectedReplacesAuthoredSource = none

structure DescribesHeaders (paths : GenericPaths) (opts : ManifestOptions) (options : ArtifactManifestValidationOptions) :
    Prop where
  sources : options.expectedSources = Slots opts.sources.length fun idx => paths.genericString (opts.source idx)
  kinds : options.expectedSourceKinds = Slots opts.sources.length fun _ => "cxx-header-declaration-registration"
  outputs : options.expectedRegistrationOutputs =
    Slots opts.sources.length fun idx => paths.genericString (opts.textualRegistrationOutputs.getD idx "")
  sourceOutputs : options.expectedSourceRegistrationOutputs = [] ∨ options.expectedSourceRegistrationOutputs =
    Slots opts.sources.length fun idx => paths.genericString (opts.textualRegistrationOutputs.getD idx "")
  contextIds : options.expectedCompileContextIds = Slots opts.sources.length (compileContextIdFor opts)
  slotKinds : options.expectedScanSlotKinds = Slots opts.sources.length (scanSlotKind opts)
  modules : options.expectedModules ≠ [] → options.expectedModules.length = opts.sources.length
  depfile : options.expectedDepfile = depfileText paths opts
  role : options.expectedArtifactRole = "registration"
  compileAs : options.expectedCompileAs = "cxx-header-declaration-registration"
  attachment : options.expectedTargetAttachment = "append-generated-source"
  scan : options.expectedRequiresModuleScan = some false
  includes : ∀ expected ∈ options.expectedIncludesAuthoredSource, expected = false
  replaces : ∀ expected ∈ options.expectedReplacesAuthoredSource, expected = false

/-- The scan of the sources reports the modules that were recorded. -/
def ScansRecorded (paths : GenericPaths) (opts : ManifestOptions) (host : ValidationHost)
    (options : ArtifactManifestValidationOptions) : Prop :=
  ∃ contexts, sourceScanContexts host options = .ok contexts ∧
    ∀ idx < opts.sources.length,
      discoveredModule host options contexts (paths.genericString (opts.source idx)) = some (moduleName opts idx)

/-- What the validator asks for the source at an index. -/
structure ModuleEntry (paths : GenericPaths) (opts : ManifestOptions) (host : ValidationHost)
    (options : ArtifactManifestValidationOptions) (contexts : String → Option ArtifactManifestSourceScanContext)
    (idx : Nat) : Prop where
  source : options.expectedSources.getD idx "" = paths.genericString (opts.source idx)
  kind : options.expectedSourceKinds.getD idx "" = "module-primary-interface"
  output : options.expectedRegistrationOutputs.getD idx "" =
    paths.genericString (opts.moduleRegistrationOutputs.getD idx "")
  sourceOutput : options.expectedSourceRegistrationOutputs ≠ [] → options.expectedSourceRegistrationOutputs.getD idx "" =
    paths.genericString (opts.moduleRegistrationOutputs.getD idx "")
  contextId : options.expectedCompileContextIds.getD idx "" = compileContextIdFor opts idx
  header : options.expectedHeaders.getD idx "" = paths.genericString (headerOutput opts idx)
  dir : options.expectedIncludeDir = includeDir paths opts idx
  module : options.expectedModules ≠ [] → options.expectedModules.getD idx "" = moduleName opts idx
  depfile : options.expectedDepfile = depfileText paths opts
  role : options.expectedArtifactRole = "registration"
  compileAs : options.expectedCompileAs = "cxx-module-importer-registration"
  attachment : options.expectedTargetAttachment = "private-generated-source"
  scan : options.expectedRequiresModuleScan = some true
  includes : options.expectedIncludesAuthoredSource = none
  replaces : options.expectedReplacesAuthoredSource = none
  discovered : discoveredModule host options contexts (paths.genericString (opts.source idx)) = some (moduleName opts idx)

theorem moduleEntry_accepted {contexts : String → Option ArtifactManifestSourceScanContext}
    (hname : moduleName opts idx ≠ "") :
    EntryAccepted host options contexts (moduleSource paths opts idx) (moduleArtifact paths opts idx) idx ↔
      ModuleEntry paths opts host options contexts idx := by
  rw [EntryAccepted, validateSourceManifestEntry_fields, validateArtifactManifestEntry_fields,
    validateAdditiveManifestEntryPair_fields, validateModuleManifestEntryPair_fields, validateNamedModule_fields]
  simp only [field?, moduleSource, moduleArtifact, List.reverse_cons, List.reverse_nil, List.nil_append, List.cons_append,
    List.find?_cons, List.find?_nil, String.reduceEq, decide_false, decide_true, Option.map_some, Option.map_none,
    Option.some.injEq, FieldText.text.injEq, FieldText.flag.injEq, FieldText.single.injEq, reduceCtorEq]
  constructor
  · rintro ⟨⟨hsource, hkind, hid, -, hregistered⟩, ⟨hpath, hrole, hcompile, -, hattach, -, ⟨_, hscan, rfl⟩, hincludes,
      hreplaces, hheader, hdepfile⟩, -, hmodule⟩
    have hadditive : additiveHeaderRegistration options = false := by simp [additiveHeaderRegistration, ← hcompile]
    obtain ⟨hheader, hdir⟩ := hheader (by simp [hadditive])
    obtain ⟨_, rfl, -, hdiscovered, -, hmodules, -⟩ := hmodule (by rw [← hkind]; decide)
    rw [← hsource] at hdiscovered
    exact ⟨hsource.symm, hkind.symm, hpath.symm, fun hne => (hregistered hne).symm, hid.symm, hheader.symm, hdir.symm,
      hmodules, hdepfile.symm, hrole.symm, hcompile.symm, hattach.symm, hscan,
      Option.eq_none_iff_forall_not_mem.mpr hincludes, Option.eq_none_iff_forall_not_mem.mpr hreplaces, hdiscovered⟩
  · intro h
    have hadditive : additiveHeaderRegistration options = false := by simp [additiveHeaderRegistration, h.compileAs]
    have hdiscovered := h.discovered
    rw [← h.source] at hdiscovered
    simp only [hadditive, Bool.false_eq_true, false_implies, not_false_eq_true, true_implies, h.includes, h.replaces,
      Option.not_mem_none, implies_true, true_and]
    exact ⟨⟨h.source.symm, h.kind.symm, h.contextId.symm, fun hne => (h.sourceOutput hne).symm⟩,
      ⟨h.output.symm, h.role.symm, h.compileAs.symm, h.source.symm, h.attachment.symm, h.contextId.symm,
        ⟨true, h.scan, rfl⟩, ⟨h.header.symm, h.dir.symm⟩, h.depfile.symm⟩,
      fun _ => ⟨_, rfl, hname, hdiscovered, h.module, rfl, fun _ => rfl⟩⟩

/-- The text of a module manifest is accepted exactly for the options it describes. -/
theorem module_manifest_accepted_iff (hmode : ModuleMode opts) (hparse : host.ParsesFaithfully)
    (hfile : host.getFile options.manifest = .ok (manifestText ((List.range opts.sources.length).map (moduleSource paths opts))
      ((List.range opts.sources.length).map (moduleArtifact paths opts)))) :
    validateArtifactManifest host options = .ok () ↔
      DescribesModules paths opts options ∧ ScansRecorded paths opts host options ∧
        touchValidationStamp host options = .ok () := by
  rw [validate_written hparse hfile hmode.toPlainOptions.moduleSource hmode.toPlainOptions.moduleArtifact]
  have hentry : ∀ contexts, ∀ idx < opts.sources.length, EntryAccepted host options contexts
      (moduleSource paths opts idx) (moduleArtifact paths opts idx) idx ↔ ModuleEntry paths opts host options contexts idx :=
    fun contexts idx hidx => moduleEntry_accepted (hmode.named idx hidx)
  have hfirst : 0 < opts.sources.length := List.length_pos_iff.mpr hmode.some
  simp only [validateExpectedCounts, then_ok, checkWhen_ok, validateExpectedListCount_ok]
  constructor
  · rintro ⟨⟨hkinds, houtputs, hids, hheaders, -, hregistered, hmodules⟩, hn, contexts, hcontexts, haccepted, htouch⟩
    have hentries := fun idx hidx => (hentry contexts idx hidx).mp (haccepted idx hidx)
    have hone := hentries 0 hfirst
    have hadditive : additiveHeaderRegistration options = false := by simp [additiveHeaderRegistration, hone.compileAs]
    rw [hn] at hkinds houtputs hids hheaders hregistered hmodules
    refine ⟨?_, ⟨contexts, hcontexts, fun idx hidx => (hentries idx hidx).discovered⟩, htouch⟩
    exact {
      sources := eq_slots_iff.mpr ⟨hn, fun idx hidx => (hentries idx hidx).source⟩
      kinds := eq_slots_iff.mpr ⟨hkinds, fun idx hidx => (hentries idx hidx).kind⟩
      outputs := eq_slots_iff.mpr ⟨houtputs, fun idx hidx => (hentries idx hidx).output⟩
      sourceOutputs := given_slots_iff.mpr ⟨hregistered, fun idx hidx => (hentries idx hidx).sourceOutput⟩
      contextIds := eq_slots_iff.mpr ⟨hids, fun idx hidx => (hentries idx hidx).contextId⟩
      headers := eq_slots_iff.mpr ⟨hheaders (by simp [hadditive]), fun idx hidx => (hentries idx hidx).header⟩
      includeDir := fun idx hidx => (hentries idx hidx).dir
      modules := given_slots_iff.mpr ⟨hmodules, fun idx hidx => (hentries idx hidx).module⟩
      depfile := hone.depfile
      role := hone.role
      compileAs := hone.compileAs
      attachment := hone.attachment
      scan := hone.scan
      includes := hone.includes
      replaces := hone.replaces }
  · rintro ⟨hdescribes, ⟨contexts, hcontexts, hscans⟩, htouch⟩
    have hadditive : additiveHeaderRegistration options = false := by
      simp [additiveHeaderRegistration, hdescribes.compileAs]
    have hsources := eq_slots_iff.mp hdescribes.sources
    have hkinds := eq_slots_iff.mp hdescribes.kinds
    have houtputs := eq_slots_iff.mp hdescribes.outputs
    have hregistered := given_slots_iff.mp hdescribes.sourceOutputs
    have hids := eq_slots_iff.mp hdescribes.contextIds
    have hheaders := eq_slots_iff.mp hdescribes.headers
    have hmodules := given_slots_iff.mp hdescribes.modules
    refine ⟨?_, hsources.1, contexts, hcontexts, fun idx hidx => (hentry contexts idx hidx).mpr ?_, htouch⟩
    · rw [hsources.1]
      exact ⟨hkinds.1, houtputs.1, hids.1, fun _ => hheaders.1, by simp [hadditive], hregistered.1, hmodules.1⟩
    · exact {
        source := hsources.2 idx hidx
        kind := hkinds.2 idx hidx
        output := houtputs.2 idx hidx
        sourceOutput := hregistered.2 idx hidx
        contextId := hids.2 idx hidx
        header := hheaders.2 idx hidx
        dir := hdescribes.includeDir idx hidx
        module := hmodules.2 idx hidx
        depfile := hdescribes.depfile
        role := hdescribes.role
        compileAs := hdescribes.compileAs
        attachment := hdescribes.attachment
        scan := hdescribes.scan
        includes := hdescribes.includes
        replaces := hdescribes.replaces
        discovered := hscans idx hidx }

/-- What the validator asks for the headers of the source at an index. -/
structure HeaderEntry (paths : GenericPaths) (opts : ManifestOptions) (options : ArtifactManifestValidationOptions)
    (idx : Nat) : Prop where
  source : options.expectedSources.getD idx "" = paths.genericString (opts.source idx)
  kind : options.expectedSourceKinds.getD idx "" = "cxx-header-declaration-registration"
  output : options.expectedRegistrationOutputs.getD idx "" =
    paths.genericString (opts.textualRegistrationOutputs.getD idx "")
  sourceOutput : options.expectedSourceRegistrationOutputs ≠ [] → options.expectedSourceRegistrationOutputs.getD idx "" =
    paths.genericString (opts.textualRegistrationOutputs.getD idx "")
  contextId : options.expectedCompileContextIds.getD idx "" = compileContextIdFor opts idx
  slotKind : options.expectedScanSlotKinds.getD idx "" = scanSlotKind opts idx
  depfile : options.expectedDepfile = depfileText paths opts
  role : options.expectedArtifactRole = "registration"
  compileAs : options.expectedCompileAs = "cxx-header-declaration-registration"
  attachment : options.expectedTargetAttachment = "append-generated-source"
  scan : options.expectedRequiresModuleScan = some false
  includes : ∀ expected ∈ options.expectedIncludesAuthoredSource, expected = false
  replaces : ∀ expected ∈ options.expectedReplacesAuthoredSource, expected = false

theorem headerEntry_accepted {contexts : String → Option ArtifactManifestSourceScanContext}
    (hhash : isSha256Fingerprint (opts.compileContextFingerprints.getD idx "") = true) :
    EntryAccepted host options contexts (textualSource paths opts idx) (textualArtifact paths opts idx) idx ↔
      HeaderEntry paths opts options idx := by
  rw [EntryAccepted, validateSourceManifestEntry_fields, validateArtifactManifestEntry_fields,
    validateAdditiveManifestEntryPair_fields, validateModuleManifestEntryPair_fields]
  simp only [field?, textualSource, textualArtifact, List.reverse_cons, List.reverse_nil, List.nil_append, List.cons_append,
    List.find?_cons, List.find?_nil, String.reduceEq, decide_false, decide_true, Option.map_some, Option.map_none,
    Option.some.injEq, FieldText.text.injEq, FieldText.flag.injEq, reduceCtorEq]
  constructor
  · rintro ⟨⟨hsource, hkind, hid, hslot, hregistered⟩, ⟨hpath, hrole, hcompile, -, hattach, -, ⟨_, hscan, rfl⟩, hincludes,
      hreplaces, -, hdepfile⟩, -, -⟩
    have hadditive : additiveHeaderRegistration options = true := by simp [additiveHeaderRegistration, ← hcompile]
    obtain ⟨-, hslot, -⟩ := hslot hadditive
    exact ⟨hsource.symm, hkind.symm, hpath.symm, fun hne => (hregistered hne).symm, hid.symm, hslot.symm, hdepfile.symm,
      hrole.symm, hcompile.symm, hattach.symm, hscan, fun expected h => (hincludes expected h).symm,
      fun expected h => (hreplaces expected h).symm⟩
  · intro h
    have hadditive : additiveHeaderRegistration options = true := by simp [additiveHeaderRegistration, h.compileAs]
    exact ⟨⟨h.source.symm, h.kind.symm, h.contextId.symm,
        fun _ => ⟨h.source.symm, h.slotKind.symm, _, rfl, hhash⟩, fun hne => (h.sourceOutput hne).symm⟩,
      ⟨h.output.symm, h.role.symm, h.compileAs.symm, h.source.symm, h.attachment.symm, h.contextId.symm,
        ⟨false, h.scan, rfl⟩, fun expected he => (h.includes expected he).symm,
        fun expected he => (h.replaces expected he).symm, fun hnot => absurd hadditive hnot, h.depfile.symm⟩,
      fun _ => ⟨_, rfl, rfl⟩, fun hkind => absurd h.kind hkind⟩

theorem header_manifest_accepted_iff (hmode : TextualMode opts) (hparse : host.ParsesFaithfully)
    (hfile : host.getFile options.manifest = .ok (manifestText ((List.range opts.sources.length).map (textualSource paths opts))
      ((List.range opts.sources.length).map (textualArtifact paths opts)))) :
    validateArtifactManifest host options = .ok () ↔
      DescribesHeaders paths opts options ∧ (∃ contexts, sourceScanContexts host options = .ok contexts) ∧
        touchValidationStamp host options = .ok () := by
  rw [validate_written hparse hfile hmode.toPlainOptions.textualSource hmode.toPlainOptions.textualArtifact]
  have hhash : ∀ idx < opts.sources.length, isSha256Fingerprint (opts.compileContextFingerprints.getD idx "") = true := by
    intro idx hidx
    rw [← hmode.hashed] at hidx
    rw [List.getD_eq_getElem?_getD, List.getElem?_eq_getElem hidx, Option.getD_some]
    exact hmode.hashes _ (List.getElem_mem hidx)
  have hentry : ∀ contexts, ∀ idx < opts.sources.length, EntryAccepted host options contexts
      (textualSource paths opts idx) (textualArtifact paths opts idx) idx ↔ HeaderEntry paths opts options idx :=
    fun contexts idx hidx => headerEntry_accepted (hhash idx hidx)
  have hfirst : 0 < opts.sources.length := List.length_pos_iff.mpr hmode.some
  simp only [validateExpectedCounts, then_ok, checkWhen_ok, validateExpectedListCount_ok]
  constructor
  · rintro ⟨⟨hkinds, houtputs, hids, -, hslots, hregistered, hmodules⟩, hn, contexts, hcontexts, haccepted, htouch⟩
    have hentries := fun idx hidx => (hentry contexts idx hidx).mp (haccepted idx hidx)
    have hone := hentries 0 hfirst
    have hadditive : additiveHeaderRegistration options = true := by simp [additiveHeaderRegistration, hone.compileAs]
    rw [hn] at hkinds houtputs hids hslots hregistered hmodules
    refine ⟨?_, ⟨contexts, hcontexts⟩, htouch⟩
    exact {
      sources := eq_slots_iff.mpr ⟨hn, fun idx hidx => (hentries idx hidx).source⟩
      kinds := eq_slots_iff.mpr ⟨hkinds, fun idx hidx => (hentries idx hidx).kind⟩
      outputs := eq_slots_iff.mpr ⟨houtputs, fun idx hidx => (hentries idx hidx).output⟩
      sourceOutputs := given_slots_iff.mpr ⟨hregistered, fun idx hidx => (hentries idx hidx).sourceOutput⟩
      contextIds := eq_slots_iff.mpr ⟨hids, fun idx hidx => (hentries idx hidx).contextId⟩
      slotKinds := eq_slots_iff.mpr ⟨hslots hadditive, fun idx hidx => (hentries idx hidx).slotKind⟩
      modules := hmodules
      depfile := hone.depfile
      role := hone.role
      compileAs := hone.compileAs
      attachment := hone.attachment
      scan := hone.scan
      includes := hone.includes
      replaces := hone.replaces }
  · rintro ⟨hdescribes, ⟨contexts, hcontexts⟩, htouch⟩
    have hadditive : additiveHeaderRegistration options = true := by
      simp [additiveHeaderRegistration, hdescribes.compileAs]
    have hsources := eq_slots_iff.mp hdescribes.sources
    have hkinds := eq_slots_iff.mp hdescribes.kinds
    have houtputs := eq_slots_iff.mp hdescribes.outputs
    have hregistered := given_slots_iff.mp hdescribes.sourceOutputs
    have hids := eq_slots_iff.mp hdescribes.contextIds
    have hslots := eq_slots_iff.mp hdescribes.slotKinds
    refine ⟨?_, hsources.1, contexts, hcontexts, fun idx hidx => (hentry contexts idx hidx).mpr ?_, htouch⟩
    · rw [hsources.1]
      exact ⟨hkinds.1, houtputs.1, hids.1, fun hnot => absurd hadditive hnot, fun _ => hslots.1, hregistered.1,
        hdescribes.modules⟩
    · exact {
        source := hsources.2 idx hidx
        kind := hkinds.2 idx hidx
        output := houtputs.2 idx hidx
        sourceOutput := hregistered.2 idx hidx
        contextId := hids.2 idx hidx
        slotKind := hslots.2 idx hidx
        depfile := hdescribes.depfile
        role := hdescribes.role
        compileAs := hdescribes.compileAs
        attachment := hdescribes.attachment
        scan := hdescribes.scan
        includes := hdescribes.includes
        replaces := hdescribes.replaces }

theorem write_module_manifest (hmode : ModuleMode opts) :
    writeArtifactManifest paths opts =
      ([manifestText ((List.range opts.sources.length).map (moduleSource paths opts))
        ((List.range opts.sources.length).map (moduleArtifact paths opts))], none) := by
  have houtputs : opts.moduleRegistrationOutputs ≠ [] := by
    intro hnone
    have hlength := hmode.outputs
    rw [hnone, List.length_nil] at hlength
    exact hmode.some (List.length_eq_zero_iff.mp hlength.symm)
  simp [writeArtifactManifest, writeModuleRegistrationManifest, writeTextualHeaderRegistrationManifest, hmode.manifest,
    houtputs, hmode.only]

theorem write_header_manifest (hmode : TextualMode opts) :
    writeArtifactManifest paths opts =
      ([manifestText ((List.range opts.sources.length).map (textualSource paths opts))
        ((List.range opts.sources.length).map (textualArtifact paths opts))], none) := by
  have houtputs : opts.textualRegistrationOutputs ≠ [] := by
    intro hnone
    have hlength := hmode.outputs
    rw [hnone, List.length_nil] at hlength
    exact hmode.some (List.length_eq_zero_iff.mp hlength.symm)
  simp [writeArtifactManifest, writeModuleRegistrationManifest, writeTextualHeaderRegistrationManifest, hmode.manifest,
    houtputs, hmode.only, hmode.hashed]

/-- In either mode one text is written, and the validator takes it exactly when
everything it compares is as the options say, the scans report the recorded
modules and the stamp can be touched. -/
theorem artifact_manifest_accepted_iff_described (paths : GenericPaths) (opts : ManifestOptions) (host : ValidationHost)
    (options : ArtifactManifestValidationOptions) (hparse : host.ParsesFaithfully) :
    (ModuleMode opts → ∃ text, writeArtifactManifest paths opts = ([text], none) ∧
      (host.getFile options.manifest = .ok text →
        (validateArtifactManifest host options = .ok () ↔
          DescribesModules paths opts options ∧ ScansRecorded paths opts host options ∧
            touchValidationStamp host options = .ok ()))) ∧
    (TextualMode opts → ∃ text, writeArtifactManifest paths opts = ([text], none) ∧
      (host.getFile options.manifest = .ok text →
        (validateArtifactManifest host options = .ok () ↔
          DescribesHeaders paths opts options ∧ (∃ contexts, sourceScanContexts host options = .ok contexts) ∧
            touchValidationStamp host options = .ok ()))) := by
  refine ⟨fun hmode => ⟨_, write_module_manifest hmode, ?_⟩, fun hmode => ⟨_, write_header_manifest hmode, ?_⟩⟩
  · exact module_manifest_accepted_iff hmode hparse
  · exact header_manifest_accepted_iff hmode hparse

def plainPaths : GenericPaths := ⟨id, fun _ _ h => h⟩

/-- One module, with a source name that has to be escaped. -/
def oneModule : ManifestOptions where
  artifactManifestPath := "out/manifest.json"
  sources := ["src/a \"b\".cppm"]
  moduleRegistrationOutputs := ["out/a.registration.cpp"]
  tuOutputHeaders := ["out/a.h"]
  moduleInterfaceNamesBySource := [("src/a \"b\".cppm", "demo.a")]
  depfilePath := some "out/a.d"

def oneModuleExpected : ArtifactManifestValidationOptions where
  manifest := "out/manifest.json"
  expectedSources := ["src/a \"b\".cppm"]
  expectedSourceKinds := ["module-primary-interface"]
  expectedRegistrationOutputs := ["out/a.registration.cpp"]
  expectedHeaders := ["out/a.h"]
  expectedCompileContextIds := ["src/a \"b\".cppm"]
  expectedModules := ["demo.a"]
  expectedIncludeDir := "out"
  expectedDepfile := "out/a.d"
  expectedTargetAttachment := "private-generated-source"
  expectedArtifactRole := "registration"
  expectedCompileAs := "cxx-module-importer-registration"
  expectedRequiresModuleScan := some true

def readingHost (text : List Char) : ValidationHost where
  getFile _ := .ok text
  parse text := (Json.read text).elim (.error "no JSON") .ok
  databaseScanContexts _ := .ok fun _ => none
  namedModuleNameFromSourceFile _ _ _ := some "demo.a"
  touchStamp _ := .ok ()

theorem readingHost_faithful (text : List Char) : (readingHost text).ParsesFaithfully := by
  intro text json h
  simp [readingHost, h]

theorem one_module_accepted_as_written :
    ∃ text, writeArtifactManifest plainPaths oneModule = ([text], none) ∧
      validateArtifactManifest (readingHost text) oneModuleExpected = .ok () ∧
      validateArtifactManifest (readingHost text) { oneModuleExpected with expectedDepfile := "out/b.d" } ≠ .ok () := by
  have hmode : ModuleMode oneModule := by
    refine ⟨⟨?_, ?_, ?_, ?_, ?_, ?_, ?_, ?_, ?_, ?_⟩, ?_, ?_, ?_, ?_, ?_⟩ <;>
      simp [oneModule, Plain, moduleName, CollectorOptions.source]
  have hwrite := @write_module_manifest plainPaths oneModule hmode
  generalize manifestText _ _ = written at hwrite
  have haccepts := fun options => (artifact_manifest_accepted_iff_described plainPaths oneModule (readingHost written)
    options (readingHost_faithful written)).1 hmode
  have hiff : ∀ options, validateArtifactManifest (readingHost written) options = .ok () ↔ _ := fun options => by
    obtain ⟨text, htext, hiff⟩ := haccepts options
    obtain rfl : written = text := by simpa [hwrite] using htext
    exact hiff rfl
  refine ⟨written, hwrite, (hiff _).mpr ⟨?_, ⟨_, rfl, fun idx hidx => ?_⟩, rfl⟩, fun haccepted => ?_⟩
  · refine ⟨rfl, rfl, rfl, .inl rfl, ?_, rfl, ?_, ?_, rfl, rfl, rfl, rfl, rfl, rfl, rfl⟩
    · decide
    · decide
    · decide
  · obtain rfl : idx = 0 := Nat.lt_one_iff.mp hidx
    rfl
  · have hdepfile := ((hiff _).mp haccepted).1.depfile
    exact absurd hdepfile (by decide)

end Gentest.Codegen.ArtifactManifest
