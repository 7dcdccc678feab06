import Gentest.Codegen.MockManifest

/-!
# The mock manifest is read as it was written

Each reader finds, under the name of a field, the value that the writer put there, in whatever
order the members of an object come back.
-/

namespace Gentest.Codegen.MockManifest

open Fallible Sorting

-- ---------------------------------------------------------------------------
-- Fields
-- ---------------------------------------------------------------------------

/-- The object is the one that was written, up to the order of members. -/
def Reads (obj written : Object) : Prop := Json.canonical (.obj obj) = Json.canonical (.obj written)

section

variable {obj written : Object} {s : String} {j : Json} {α : Type}

theorem get_reads (key : String) (h : Reads obj written) (hwritten : get written key = some j) :
    ∃ found, get obj key = some found ∧ Json.canonical found = Json.canonical j := by
  have hget := Json.get_of_canonical h key.toList
  rw [get] at hwritten
  rw [hwritten] at hget
  exact Option.map_eq_some_iff.mp hget

theorem get_text (key : String) (h : Reads obj written) (hwritten : get written key = some (text s)) :
    get obj key = some (.str s.toList) := by
  obtain ⟨found, hfound, hsame⟩ := get_reads key h hwritten
  rw [hfound, Json.eq_str_of_canonical hsame]

theorem get_arr (key : String) (h : Reads obj written) {elements : List Json}
    (hwritten : get written key = some (.arr elements)) :
    ∃ entries, get obj key = some (.arr entries) ∧ entries.map Json.canonical = elements.map Json.canonical := by
  obtain ⟨found, hfound, hsame⟩ := get_reads key h hwritten
  obtain ⟨entries, rfl, hentries⟩ := Json.eq_arr_of_canonical hsame
  exact ⟨entries, hfound, hentries⟩

theorem requireString_reads (key : String) (h : Reads obj written) (hwritten : get written key = some (text s)) :
    requireString obj key = .ok s := by
  rw [requireString, get_text key h hwritten]
  exact congrArg Except.ok (String.ofList_toList)

theorem optionalString_reads (key : String) (h : Reads obj written) (hwritten : get written key = some (text s)) :
    optionalString obj key = .ok s := by
  rw [optionalString, get_text key h hwritten]
  exact congrArg Except.ok (String.ofList_toList)

theorem optionalBool_reads {b : Bool} (key : String) (h : Reads obj written)
    (hwritten : get written key = some (.bool b)) : optionalBool obj key = .ok b := by
  obtain ⟨found, hfound, hsame⟩ := get_reads key h hwritten
  rw [optionalBool, hfound, Json.eq_bool_of_canonical hsame]

theorem mapM_reads (write : α → Json) {read : Json → Except String α} {items : List α} {entries : List Json}
    (hread : ∀ item ∈ items, ∀ entry, Json.canonical entry = Json.canonical (write item) → read entry = .ok item)
    (h : entries.map Json.canonical = (items.map write).map Json.canonical) : entries.mapM read = .ok items := by
  induction items generalizing entries with
  | nil =>
    rw [List.map_eq_nil_iff.mp h]
    rfl
  | cons item items ih =>
    obtain ⟨entry, entries, rfl, hentry, hentries⟩ := List.map_eq_cons_iff.mp h
    rw [List.mapM_cons, hread item List.mem_cons_self entry hentry,
      ih (fun item hitem => hread item (List.mem_cons_of_mem _ hitem)) hentries]
    rfl

theorem stringVector_reads {values : List String} (key : String) (h : Reads obj written)
    (hwritten : get written key = some (stringArray values)) : stringVector obj key = .ok values := by
  obtain ⟨entries, hget, hentries⟩ := get_arr key h hwritten
  rw [stringVector, hget]
  refine mapM_reads text (fun value _ entry hentry => ?_) hentries
  rw [Json.eq_str_of_canonical hentry]
  exact congrArg Except.ok (String.ofList_toList)

theorem parseObjects_reads {write : α → Object} {parse : Object → Except String α} {items : List α} (key : String)
    (hparse : ∀ item ∈ items, ∀ obj, Reads obj (write item) → parse obj = .ok item) (h : Reads obj written)
    (hwritten : get written key = some (objectArray write items)) : parseObjects parse obj key = .ok items := by
  obtain ⟨entries, hget, hentries⟩ := get_arr key h hwritten
  rw [parseObjects, hget]
  refine mapM_reads (fun item => .obj (write item)) (fun item hitem entry hentry => ?_) hentries
  obtain ⟨members, rfl⟩ := Json.eq_obj_of_canonical hentry
  exact hparse item hitem members hentry

end

-- ---------------------------------------------------------------------------
-- Records
-- ---------------------------------------------------------------------------

variable {obj : Object}

theorem ok_bind {α β : Type} (a : α) (f : α → Except String β) : (Except.ok a >>= f) = f a := rfl

theorem parseTemplateParam_reads {param : TemplateParam} (h : Reads obj (templateParamObject param)) :
    parseTemplateParam obj = .ok param := by
  have hkind : ∀ error, parseEnum (templateParamKindText param.kind) error parseTemplateParamKind = .ok param.kind := by
    intro error
    cases param.kind <;> rfl
  rw [parseTemplateParam, requireString_reads "kind" h rfl, ok_bind, hkind, ok_bind, optionalString_reads "name" h rfl,
    ok_bind, optionalBool_reads "is_pack" h rfl, ok_bind, optionalString_reads "usage_spelling" h rfl]
  rfl

theorem parseParam_reads {param : MockParamInfo} (h : Reads obj (paramObject param)) : parseParam obj = .ok param := by
  have hstyle : ∀ error, parseEnum (passStyleText param.passStyle) error parsePassStyle = .ok param.passStyle := by
    intro error
    cases param.passStyle <;> rfl
  rw [parseParam, requireString_reads "type" h rfl, ok_bind, optionalString_reads "name" h rfl, ok_bind,
    optionalString_reads "default_arg" h rfl, ok_bind, requireString_reads "pass_style" h rfl, ok_bind, hstyle]
  rfl

theorem parseParams_reads {written : Object} {params : List MockParamInfo} (key : String) (h : Reads obj written)
    (hwritten : get written key = some (objectArray paramObject params)) : parseParams obj key = .ok params :=
  parseObjects_reads key (fun _ _ _ => parseParam_reads) h hwritten

theorem parseTemplateParams_reads {written : Object} {params : List TemplateParam} (key : String)
    (h : Reads obj written) (hwritten : get written key = some (objectArray templateParamObject params)) :
    parseTemplateParams obj key = .ok params :=
  parseObjects_reads key (fun _ _ _ => parseTemplateParam_reads) h hwritten

theorem parseCtor_reads {ctor : MockCtorInfo} (h : Reads obj (ctorObject ctor)) : parseCtor obj = .ok ctor := by
  rw [parseCtor, parseParams_reads "parameters" h rfl, ok_bind, optionalString_reads "template_prefix" h rfl, ok_bind,
    parseTemplateParams_reads "template_params" h rfl, ok_bind, optionalBool_reads "is_explicit" h rfl, ok_bind,
    optionalBool_reads "is_noexcept" h rfl]
  rfl

theorem parseQualifiers_reads {qualifiers : MockMethodQualifiers} (h : Reads obj (qualifiersObject qualifiers)) :
    parseQualifiers obj = .ok qualifiers := by
  have hcv : ∀ error, parseEnum (cvQualifierText qualifiers.cv) error parseCvQualifier = .ok qualifiers.cv := by
    intro error
    cases qualifiers.cv <;> rfl
  have href : ∀ error, parseEnum (refQualifierText qualifiers.ref) error parseRefQualifier = .ok qualifiers.ref := by
    intro error
    cases qualifiers.ref <;> rfl
  rw [parseQualifiers, requireString_reads "cv" h rfl, ok_bind, hcv, ok_bind, requireString_reads "ref" h rfl, ok_bind,
    href, ok_bind, optionalBool_reads "is_noexcept" h rfl]
  rfl

theorem requireQualifiers_reads {method : MockMethodInfo} (h : Reads obj (methodObject method)) :
    requireQualifiers obj = .ok method.qualifiers := by
  obtain ⟨found, hfound, hsame⟩ := get_reads "qualifiers" h rfl
  obtain ⟨qualifiers, rfl⟩ := Json.eq_obj_of_canonical hsame
  rw [requireQualifiers, hfound]
  exact parseQualifiers_reads hsame

theorem parseMethod_reads {method : MockMethodInfo} (h : Reads obj (methodObject method)) :
    parseMethod obj = .ok method := by
  rw [parseMethod, requireString_reads "qualified_name" h rfl, ok_bind, requireString_reads "method_name" h rfl, ok_bind,
    requireString_reads "return_type" h rfl, ok_bind, parseParams_reads "parameters" h rfl, ok_bind,
    optionalString_reads "template_prefix" h rfl, ok_bind, parseTemplateParams_reads "template_params" h rfl, ok_bind,
    optionalBool_reads "is_static" h rfl, ok_bind, optionalBool_reads "is_virtual" h rfl, ok_bind,
    optionalBool_reads "is_pure_virtual" h rfl, ok_bind, optionalBool_reads "is_final" h rfl, ok_bind,
    optionalBool_reads "is_variadic" h rfl, ok_bind, optionalBool_reads "is_overloaded_operator" h rfl, ok_bind,
    optionalBool_reads "is_conversion_operator" h rfl, ok_bind, requireQualifiers_reads h]
  rfl

section

variable {lib : JsonLibrary}

/-- Integers that fit are read as they are written. -/
def JsonLibrary.ReadsIntegers (lib : JsonLibrary) : Prop := ∀ n < 2 ^ 63, lib.integer (Nat.toDigits 10 n) = some n

theorem getInteger_reads (hlib : lib.ReadsIntegers) {written : Object} {n : Nat} (key : String) (h : Reads obj written)
    (hwritten : get written key = some (integer n)) (hn : n < 2 ^ 63) : getInteger lib obj key = some n := by
  rw [integer, if_pos hn] at hwritten
  obtain ⟨found, hfound, hsame⟩ := get_reads key h hwritten
  rw [getInteger, hfound, Json.eq_num_of_canonical hsame]
  exact hlib n hn

theorem parseNamespaceScope_reads (hlib : lib.ReadsIntegers) {scope : MockNamespaceScopeInfo}
    (hscope : scope.lexicalCloseGroup < 2 ^ 63) (h : Reads obj (namespaceScopeObject scope)) :
    parseNamespaceScope lib obj = .ok scope := by
  have hgroup : lexicalCloseGroup lib obj = .ok scope.lexicalCloseGroup := by
    rw [lexicalCloseGroup, getInteger_reads hlib "lexical_close_group" h rfl hscope]
    exact if_pos (Int.natCast_nonneg _)
  rw [parseNamespaceScope, hgroup, ok_bind, optionalString_reads "name" h rfl, ok_bind,
    optionalBool_reads "is_inline" h rfl, ok_bind, optionalBool_reads "is_exported" h rfl, ok_bind,
    optionalString_reads "reopen_prefix" h rfl]
  rfl

/-- The offsets of a mock fit in an integer of JSON. -/
structure MockInfo.OffsetsFit (mock : MockInfo) : Prop where
  insertion : ∀ offset ∈ mock.attachmentInsertionOffset, offset < 2 ^ 63
  scopes : ∀ scope ∈ mock.attachmentNamespaceChain, scope.lexicalCloseGroup < 2 ^ 63

theorem attachmentInsertionOffset_reads (hlib : lib.ReadsIntegers) {mock : MockInfo} (hfit : mock.OffsetsFit)
    (h : Reads obj (mockObject mock)) : attachmentInsertionOffset lib obj = .ok mock.attachmentInsertionOffset := by
  cases hoffset : mock.attachmentInsertionOffset with
  | none =>
    have hnone : get (mockObject mock) "attachment_insertion_offset" = none := by
      rw [mockObject, hoffset]
      rfl
    have hget := Json.get_of_canonical h "attachment_insertion_offset".toList
    rw [get] at hnone
    rw [hnone, Option.map_none, Option.map_eq_none_iff] at hget
    rw [attachmentInsertionOffset, getInteger, get, hget]
  | some offset =>
    have hsome : get (mockObject mock) "attachment_insertion_offset" = some (integer offset) := by
      rw [mockObject, hoffset]
      rfl
    rw [attachmentInsertionOffset, getInteger_reads hlib _ h hsome (hfit.insertion offset hoffset)]
    exact if_neg (Int.not_lt.mpr (Int.natCast_nonneg _))

theorem get_mockObject (mock : MockInfo) {key : String} (hkey : key ≠ "attachment_insertion_offset") :
    get (mockObject mock) key = get (mockObject { mock with attachmentInsertionOffset := none }) key := by
  cases hoffset : mock.attachmentInsertionOffset with
  | none => rw [← hoffset]
  | some offset =>
    have hname : ¬ decide ("attachment_insertion_offset".toList = key.toList) = true := fun hsame =>
      hkey (String.toList_inj.mp (of_decide_eq_true hsame)).symm
    rw [mockObject, mockObject, hoffset, object, object, List.map_append, List.map_append, get, get, Json.get, Json.get,
      List.reverse_append, List.reverse_append]
    exact congrArg _ (List.find?_cons_of_neg (p := fun m : List Char × Json => decide (m.1 = key.toList)) hname)

theorem parseMock_reads (hlib : lib.ReadsIntegers) {mock : MockInfo} (hname : mock.displayName ≠ "")
    (hfit : mock.OffsetsFit) (h : Reads obj (mockObject mock)) : parseMock lib obj = .ok mock := by
  have hkind : ∀ error, parseEnum (definitionKindText mock.definitionKind) error parseDefinitionKind =
      .ok mock.definitionKind := by
    intro error
    cases mock.definitionKind <;> rfl
  have hget : ∀ {key : String} {j : Json}, key ≠ "attachment_insertion_offset" →
      get (mockObject { mock with attachmentInsertionOffset := none }) key = some j →
        get (mockObject mock) key = some j := fun hkey hfound => (get_mockObject mock hkey).trans hfound
  have hscopes : parseNamespaceScopes lib obj = .ok mock.attachmentNamespaceChain :=
    parseObjects_reads _ (fun scope hscope _ => parseNamespaceScope_reads hlib (hfit.scopes scope hscope)) h
      (hget (by decide) rfl)
  have hctors : parseCtors obj = .ok mock.constructors :=
    parseObjects_reads _ (fun _ _ _ => parseCtor_reads) h (hget (by decide) rfl)
  have hmethods : parseMethods obj = .ok mock.methods :=
    parseObjects_reads _ (fun _ _ _ => parseMethod_reads) h (hget (by decide) rfl)
  rw [parseMock, requireString_reads "qualified_name" h (hget (by decide) rfl), ok_bind,
    optionalString_reads "display_name" h (hget (by decide) rfl), ok_bind,
    requireString_reads "definition_file" h (hget (by decide) rfl), ok_bind,
    requireString_reads "definition_kind" h (hget (by decide) rfl), ok_bind, hkind, ok_bind,
    stringVector_reads "use_files" h (hget (by decide) rfl), ok_bind,
    optionalString_reads "definition_module_name" h (hget (by decide) rfl), ok_bind,
    optionalString_reads "enclosing_record_scope" h (hget (by decide) rfl), ok_bind,
    optionalBool_reads "is_template_specialization" h (hget (by decide) rfl), ok_bind, hscopes, ok_bind,
    optionalBool_reads "derive_for_virtual" h (hget (by decide) rfl), ok_bind,
    optionalBool_reads "has_accessible_default_ctor" h (hget (by decide) rfl), ok_bind,
    optionalBool_reads "has_virtual_destructor" h (hget (by decide) rfl), ok_bind,
    stringVector_reads "unhidden_method_names" h (hget (by decide) rfl), ok_bind, hctors, ok_bind, hmethods, ok_bind]
  simp only [if_neg hname, attachmentInsertionOffset_reads hlib hfit h, ok_bind]
  rfl

-- ---------------------------------------------------------------------------
-- The manifest
-- ---------------------------------------------------------------------------

theorem readRoot_reads (hlib : lib.ReadsIntegers) {std : UnstableSort} {mocks : List MockInfo} {modules : List String}
    (hnames : ∀ mock ∈ mocks, mock.displayName ≠ "") (hfit : ∀ mock ∈ mocks, mock.OffsetsFit)
    (h : Reads obj (rootObject std mocks modules)) :
    readRoot lib obj = { mocks := std.sort keyLess mocks, mockOutputDomainModules := modules } := by
  have hmocks : readMocks lib obj modules =
      { mocks := std.sort keyLess mocks, mockOutputDomainModules := modules } := by
    obtain ⟨entries, hget, -⟩ := get_arr "mocks" h rfl
    have hread : parseObjects (parseMock lib) obj "mocks" = .ok (std.sort keyLess mocks) := by
      refine parseObjects_reads _ (fun mock hmock _ hobj => ?_) h rfl
      have hmock := std.mem_sort.mp hmock
      exact parseMock_reads hlib (hnames mock hmock) (hfit mock hmock) hobj
    rw [readMocks, hget]
    simp only [hread]
  have hmodules : readModules lib obj = readMocks lib obj modules := by
    obtain ⟨entries, hget, -⟩ := get_arr "mock_output_domain_modules" h rfl
    rw [readModules, hget]
    simp only [stringVector_reads "mock_output_domain_modules" h rfl]
  have hschema : String.ofList kSchema.toList = kSchema := String.ofList_toList
  rw [readRoot, get_text "schema" h rfl]
  simp only [hschema, if_true, hmodules, hmocks]

theorem sort_keyLess (std : UnstableSort) {mocks : List MockInfo} (h : (mocks.map MockInfo.key).Nodup) :
    (std.sort keyLess mocks).Pairwise fun mock mock' => mock.key < mock'.key := by
  have hsorted := std.sorted keyLess mocks
    (fun a b c hab hbc => by
      rw [keyLess, decide_eq_false_iff_not, not_lt] at *
      exact hab.trans hbc)
    (fun a b => by
      simp only [keyLess, decide_eq_false_iff_not, not_lt]
      exact le_total b.key a.key)
  have hnodup : (std.sort keyLess mocks).Pairwise fun mock mock' => mock.key ≠ mock'.key :=
    List.pairwise_map.mp (((std.perm keyLess mocks).map MockInfo.key).nodup_iff.mpr h)
  refine (hsorted.and hnodup).imp fun ⟨hle, hne⟩ => ?_
  exact lt_of_le_of_ne (not_lt.mp (of_decide_eq_false hle)) hne

/-- The library reads back a value that it wrote, in a line of its own. -/
def JsonLibrary.Faithful (lib : JsonLibrary) (j : Json) : Prop :=
  ∃ found, lib.parse (lib.print j ++ ['\n']) = .ok found ∧ Json.canonical found = Json.canonical j

/-- A manifest that was written is read without an error as the mocks that it was made of, in the
order of their keys, and the modules. -/
theorem mockManifest_roundTrip {std : UnstableSort} {getFile : String → Except String (List Char)} {path : String}
    {mocks : List MockInfo} {modules : List String} (hintegers : lib.ReadsIntegers)
    (hlib : lib.Faithful (.obj (rootObject std mocks modules)))
    (hfile : getFile path = .ok (serialize lib std mocks modules)) (hkeys : (mocks.map MockInfo.key).Nodup)
    (hnames : ∀ mock ∈ mocks, mock.displayName ≠ "") (hfit : ∀ mock ∈ mocks, mock.OffsetsFit) :
    ∃ sorted, read lib getFile path = { mocks := sorted, mockOutputDomainModules := modules, error := "" } ∧
      sorted.Perm mocks ∧ sorted.Pairwise fun mock mock' => mock.key < mock'.key := by
  obtain ⟨found, hparse, hsame⟩ := hlib
  obtain ⟨root, rfl⟩ := Json.eq_obj_of_canonical hsame
  refine ⟨std.sort keyLess mocks, ?_, std.perm keyLess mocks, sort_keyLess std hkeys⟩
  rw [read, hfile]
  simp only [serialize, hparse]
  exact readRoot_reads hintegers hnames hfit hsame

end

/-- Two mocks, one of them of a module, in the other order. -/
def twoMocks : List MockInfo :=
  [{ qualifiedName := "ns::Clock", displayName := "Clock", definitionFile := "/src/clock.cppm",
     definitionKind := .namedModule, definitionModuleName := "app.clock", attachmentInsertionOffset := some 120,
     attachmentNamespaceChain := [⟨"ns", false, true, 131, "export namespace ns "⟩], deriveForVirtual := true },
    { qualifiedName := "Adder", displayName := "Adder", definitionFile := "/src/adder.hpp" }]

/-- A library that writes the members of objects in order, and no character in another way. -/
def plainLibrary : JsonLibrary where
  print j := Json.render id (Json.canonical j)
  parse text := (Json.read text).elim (.error "invalid JSON") .ok
  integer digits := some (Nat.ofDigitChars 10 digits 0)

set_option maxRecDepth 20000 in
theorem twoMocks_roundTrip :
    ∃ sorted, read plainLibrary (fun _ => .ok (serialize plainLibrary insertion twoMocks ["app"])) "mocks.json" =
        { mocks := sorted, mockOutputDomainModules := ["app"], error := "" } ∧
      sorted.Perm twoMocks ∧ sorted.Pairwise fun mock mock' => mock.key < mock'.key := by
  refine mockManifest_roundTrip (fun n _ => congrArg (fun n : Nat => some (n : Int)) Nat.ofDigitChars_ten_toDigits)
    ⟨Json.canonical (.obj (rootObject insertion twoMocks ["app"])), ?_, ?_⟩ rfl ?_ ?_ ?_
  · rfl
  · exact Json.canonical_canonical _
  · decide
  · decide
  · intro mock hmock
    simp only [twoMocks, List.mem_cons, List.not_mem_nil, or_false] at hmock
    obtain rfl | rfl := hmock
    · constructor <;> simp
    · constructor <;> simp

end Gentest.Codegen.MockManifest
