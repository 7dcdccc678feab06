import Gentest.Codegen.Emit
import Gentest.Codegen.RowTexts
import Gentest.Lib.Fallible
import Gentest.Lib.JsonObjects
import Gentest.Lib.Sorting
import Mathlib.Data.Prod.Lex
import Mathlib.Data.String.Basic

/-!
# The mock manifest

What was found out about the mocked types is written as JSON in one step and read in another.
The records of a mock are written and read field by field; what a reader does not find keeps
its default.
-/

namespace Gentest.Codegen.MockManifest

open Sorting

-- ---------------------------------------------------------------------------
-- The records of a mock
-- ---------------------------------------------------------------------------

structure TemplateParam extends TemplateParamInfo where
  usageSpelling : String
  deriving DecidableEq

inductive PassStyle
  | value
  | lValueRef
  | rValueRef
  | forwardingRef
  deriving DecidableEq, Repr

structure MockParamInfo where
  type : String
  name : String := ""
  defaultArg : String := ""
  passStyle : PassStyle := .value
  deriving DecidableEq

inductive MockMethodCvQualifier
  | none
  | const
  | volatile
  | constVolatile
  deriving DecidableEq, Repr

inductive MockMethodRefQualifier
  | none
  | lValue
  | rValue
  deriving DecidableEq, Repr

structure MockMethodQualifiers where
  cv : MockMethodCvQualifier := .none
  ref : MockMethodRefQualifier := .none
  isNoexcept : Bool := false
  deriving DecidableEq

structure MockCtorInfo where
  parameters : List MockParamInfo
  templatePrefix : String
  templateParams : List TemplateParam
  isExplicit : Bool
  isNoexcept : Bool
  deriving DecidableEq

structure MockMethodInfo where
  qualifiedName : String
  methodName : String
  returnType : String
  parameters : List MockParamInfo
  templatePrefix : String
  templateParams : List TemplateParam
  isStatic : Bool
  isVirtual : Bool
  isPureVirtual : Bool
  isFinal : Bool
  isVariadic : Bool
  isOverloadedOperator : Bool
  isConversionOperator : Bool
  qualifiers : MockMethodQualifiers
  deriving DecidableEq

structure MockNamespaceScopeInfo where
  name : String
  isInline : Bool
  isExported : Bool
  lexicalCloseGroup : Nat
  reopenPrefix : String
  deriving DecidableEq

structure MockInfo extends MockClassInfo where
  displayName : String
  enclosingRecordScope : String := ""
  isTemplateSpecialization : Bool := false
  attachmentInsertionOffset : Option Nat := none
  attachmentNamespaceChain : List MockNamespaceScopeInfo := []
  deriveForVirtual : Bool := false
  hasAccessibleDefaultCtor : Bool := false
  hasVirtualDestructor : Bool := false
  unhiddenMethodNames : List String := []
  constructors : List MockCtorInfo := []
  methods : List MockMethodInfo := []

-- ---------------------------------------------------------------------------
-- The writer
-- ---------------------------------------------------------------------------

abbrev Object := List (List Char × Json)

/-- What is asked of the library for JSON: its writer, its reader, and the integer a number is
taken for. -/
structure JsonLibrary where
  print : Json → List Char
  parse : List Char → Except String Json
  integer : List Char → Option Int

def kSchema : String := "gentest.mock_manifest.v1"

def templateParamKindText : TemplateParamKind → String
  | .type => "type"
  | .value => "value"
  | .template => "template"

def passStyleText : PassStyle → String
  | .value => "value"
  | .lValueRef => "lvalue_ref"
  | .rValueRef => "rvalue_ref"
  | .forwardingRef => "forwarding_ref"

def cvQualifierText : MockMethodCvQualifier → String
  | .none => "none"
  | .const => "const"
  | .volatile => "volatile"
  | .constVolatile => "const_volatile"

def refQualifierText : MockMethodRefQualifier → String
  | .none => "none"
  | .lValue => "lvalue"
  | .rValue => "rvalue"

def definitionKindText : DefinitionKind → String
  | .headerLike => "header_like"
  | .namedModule => "named_module"

def object (members : List (String × Json)) : Object := members.map fun (key, value) => (key.toList, value)

def text (s : String) : Json := .str s.toList

/-- `static_cast<std::int64_t>` of a `std::size_t`, in decimal. -/
def integer (n : Nat) : Json :=
  .num (if n < 2 ^ 63 then Nat.toDigits 10 n else '-' :: Nat.toDigits 10 (2 ^ 64 - n))

def objectArray {α : Type} (write : α → Object) (items : List α) : Json := .arr (items.map fun item => .obj (write item))

def stringArray (values : List String) : Json := .arr (values.map text)

def templateParamObject (param : TemplateParam) : Object :=
  object
    [("kind", text (templateParamKindText param.kind)),
      ("name", text param.name),
      ("is_pack", .bool param.isPack),
      ("usage_spelling", text param.usageSpelling)]

def paramObject (param : MockParamInfo) : Object :=
  object
    [("type", text param.type),
      ("name", text param.name),
      ("default_arg", text param.defaultArg),
      ("pass_style", text (passStyleText param.passStyle))]

def ctorObject (ctor : MockCtorInfo) : Object :=
  object
    [("parameters", objectArray paramObject ctor.parameters),
      ("template_prefix", text ctor.templatePrefix),
      ("template_params", objectArray templateParamObject ctor.templateParams),
      ("is_explicit", .bool ctor.isExplicit),
      ("is_noexcept", .bool ctor.isNoexcept)]

def qualifiersObject (qualifiers : MockMethodQualifiers) : Object :=
  object
    [("cv", text (cvQualifierText qualifiers.cv)),
      ("ref", text (refQualifierText qualifiers.ref)),
      ("is_noexcept", .bool qualifiers.isNoexcept)]

def methodObject (method : MockMethodInfo) : Object :=
  object
    [("qualified_name", text method.qualifiedName),
      ("method_name", text method.methodName),
      ("return_type", text method.returnType),
      ("parameters", objectArray paramObject method.parameters),
      ("template_prefix", text method.templatePrefix),
      ("template_params", objectArray templateParamObject method.templateParams),
      ("is_static", .bool method.isStatic),
      ("is_virtual", .bool method.isVirtual),
      ("is_pure_virtual", .bool method.isPureVirtual),
      ("is_final", .bool method.isFinal),
      ("is_variadic", .bool method.isVariadic),
      ("is_overloaded_operator", .bool method.isOverloadedOperator),
      ("is_conversion_operator", .bool method.isConversionOperator),
      ("qualifiers", .obj (qualifiersObject method.qualifiers))]

def namespaceScopeObject (scope : MockNamespaceScopeInfo) : Object :=
  object
    [("name", text scope.name),
      ("is_inline", .bool scope.isInline),
      ("is_exported", .bool scope.isExported),
      ("lexical_close_group", integer scope.lexicalCloseGroup),
      ("reopen_prefix", text scope.reopenPrefix)]

def mockObject (mock : MockInfo) : Object :=
  object
    ([("qualified_name", text mock.qualifiedName),
      ("display_name", text mock.displayName),
      ("definition_file", text mock.definitionFile),
      ("definition_kind", text (definitionKindText mock.definitionKind)),
      ("use_files", stringArray mock.useFiles),
      ("definition_module_name", text mock.definitionModuleName),
      ("enclosing_record_scope", text mock.enclosingRecordScope),
      ("is_template_specialization", .bool mock.isTemplateSpecialization),
      ("attachment_namespace_chain", objectArray namespaceScopeObject mock.attachmentNamespaceChain),
      ("derive_for_virtual", .bool mock.deriveForVirtual),
      ("has_accessible_default_ctor", .bool mock.hasAccessibleDefaultCtor),
      ("has_virtual_destructor", .bool mock.hasVirtualDestructor),
      ("unhidden_method_names", stringArray mock.unhiddenMethodNames),
      ("constructors", objectArray ctorObject mock.constructors),
      ("methods", objectArray methodObject mock.methods)] ++
      (mock.attachmentInsertionOffset.map fun offset => ("attachment_insertion_offset", integer offset)).toList)

def DefinitionKind.number : DefinitionKind → Nat
  | .headerLike => 0
  | .namedModule => 1

def MockInfo.key (mock : MockInfo) : String ×ₗ String ×ₗ String ×ₗ Nat :=
  toLex (mock.qualifiedName, toLex (mock.definitionFile, toLex (mock.definitionModuleName,
    DefinitionKind.number mock.definitionKind)))

def keyLess (mock mock' : MockInfo) : Bool := decide (mock.key < mock'.key)

def rootObject (std : UnstableSort) (mocks : List MockInfo) (mockOutputDomainModules : List String) : Object :=
  object
    [("schema", text kSchema),
      ("mock_output_domain_modules", stringArray mockOutputDomainModules),
      ("mocks", objectArray mockObject (std.sort keyLess mocks))]

def serialize (lib : JsonLibrary) (std : UnstableSort) (mocks : List MockInfo) (mockOutputDomainModules : List String) :
    List Char :=
  lib.print (.obj (rootObject std mocks mockOutputDomainModules)) ++ ['\n']

-- ---------------------------------------------------------------------------
-- The reader
-- ---------------------------------------------------------------------------

def get (obj : Object) (key : String) : Option Json := Json.get obj key.toList

def requireString (obj : Object) (key : String) : Except String String :=
  match get obj key with
  | some (.str s) => .ok (String.ofList s)
  | _ => .error s!"missing or invalid string field '{key}'"

def optionalString (obj : Object) (key : String) : Except String String :=
  match get obj key with
  | none => .ok ""
  | some (.str s) => .ok (String.ofList s)
  | some _ => .error s!"invalid string field '{key}'"

def optionalBool (obj : Object) (key : String) : Except String Bool :=
  match get obj key with
  | none => .ok false
  | some (.bool b) => .ok b
  | some _ => .error s!"invalid boolean field '{key}'"

def stringVector (obj : Object) (key : String) : Except String (List String) :=
  match get obj key with
  | some (.arr entries) =>
    entries.mapM fun
      | .str s => .ok (String.ofList s)
      | _ => .error s!"invalid string entry in '{key}'"
  | _ => .ok []

/-- The objects of an array, each read by `parse`. -/
def parseObjects {α : Type} (parse : Object → Except String α) (obj : Object) (key : String) : Except String (List α) :=
  match get obj key with
  | some (.arr entries) =>
    entries.mapM fun
      | .obj members => parse members
      | _ => .error s!"invalid object entry in '{key}'"
  | _ => .ok []

def parseEnum {α : Type} (value error : String) (parse : String → Option α) : Except String α :=
  match parse value with
  | some out => .ok out
  | none => .error error

def parseTemplateParamKind (value : String) : Option TemplateParamKind :=
  if value = "type" then some .type
  else if value = "value" then some .value
  else if value = "template" then some .template
  else none

def parsePassStyle (value : String) : Option PassStyle :=
  if value = "value" then some .value
  else if value = "lvalue_ref" then some .lValueRef
  else if value = "rvalue_ref" then some .rValueRef
  else if value = "forwarding_ref" then some .forwardingRef
  else none

def parseCvQualifier (value : String) : Option MockMethodCvQualifier :=
  if value = "none" then some .none
  else if value = "const" then some .const
  else if value = "volatile" then some .volatile
  else if value = "const_volatile" then some .constVolatile
  else none

def parseRefQualifier (value : String) : Option MockMethodRefQualifier :=
  if value = "none" then some .none
  else if value = "lvalue" then some .lValue
  else if value = "rvalue" then some .rValue
  else none

def parseDefinitionKind (value : String) : Option DefinitionKind :=
  if value = "header_like" then some .headerLike
  else if value = "named_module" then some .namedModule
  else none

def parseTemplateParam (obj : Object) : Except String TemplateParam := do
  let kindText ← requireString obj "kind"
  let kind ← parseEnum kindText s!"invalid template parameter kind '{kindText}'" parseTemplateParamKind
  let name ← optionalString obj "name"
  let isPack ← optionalBool obj "is_pack"
  let usageSpelling ← optionalString obj "usage_spelling"
  return { kind, name, isPack, usageSpelling }

def parseTemplateParams : Object → String → Except String (List TemplateParam) := parseObjects parseTemplateParam

def parseParam (obj : Object) : Except String MockParamInfo := do
  let type ← requireString obj "type"
  let name ← optionalString obj "name"
  let defaultArg ← optionalString obj "default_arg"
  let passStyleText ← requireString obj "pass_style"
  let passStyle ← parseEnum passStyleText s!"invalid mock parameter pass_style '{passStyleText}'" parsePassStyle
  return { type, name, defaultArg, passStyle }

def parseParams : Object → String → Except String (List MockParamInfo) := parseObjects parseParam

def parseCtor (obj : Object) : Except String MockCtorInfo := do
  let parameters ← parseParams obj "parameters"
  let templatePrefix ← optionalString obj "template_prefix"
  let templateParams ← parseTemplateParams obj "template_params"
  let isExplicit ← optionalBool obj "is_explicit"
  let isNoexcept ← optionalBool obj "is_noexcept"
  return { parameters, templatePrefix, templateParams, isExplicit, isNoexcept }

def parseCtors (obj : Object) : Except String (List MockCtorInfo) := parseObjects parseCtor obj "constructors"

def parseQualifiers (obj : Object) : Except String MockMethodQualifiers := do
  let cvText ← requireString obj "cv"
  let cv ← parseEnum cvText "invalid mock method qualifiers" parseCvQualifier
  let refText ← requireString obj "ref"
  let ref ← parseEnum refText "invalid mock method qualifiers" parseRefQualifier
  let isNoexcept ← optionalBool obj "is_noexcept"
  return { cv, ref, isNoexcept }

/-- The object under `qualifiers`. -/
def requireQualifiers (obj : Object) : Except String MockMethodQualifiers :=
  match get obj "qualifiers" with
  | some (.obj qualifiers) => parseQualifiers qualifiers
  | _ => .error "missing object field 'qualifiers'"

def parseMethod (obj : Object) : Except String MockMethodInfo := do
  let qualifiedName ← requireString obj "qualified_name"
  let methodName ← requireString obj "method_name"
  let returnType ← requireString obj "return_type"
  let parameters ← parseParams obj "parameters"
  let templatePrefix ← optionalString obj "template_prefix"
  let templateParams ← parseTemplateParams obj "template_params"
  let isStatic ← optionalBool obj "is_static"
  let isVirtual ← optionalBool obj "is_virtual"
  let isPureVirtual ← optionalBool obj "is_pure_virtual"
  let isFinal ← optionalBool obj "is_final"
  let isVariadic ← optionalBool obj "is_variadic"
  let isOverloadedOperator ← optionalBool obj "is_overloaded_operator"
  let isConversionOperator ← optionalBool obj "is_conversion_operator"
  let qualifiers ← requireQualifiers obj
  return { qualifiedName, methodName, returnType, parameters, templatePrefix, templateParams, isStatic, isVirtual,
           isPureVirtual, isFinal, isVariadic, isOverloadedOperator, isConversionOperator, qualifiers }

def parseMethods (obj : Object) : Except String (List MockMethodInfo) := parseObjects parseMethod obj "methods"

section

variable (lib : JsonLibrary)

def getInteger (obj : Object) (key : String) : Option Int :=
  match get obj key with
  | some (.num digits) => lib.integer digits
  | _ => none

def lexicalCloseGroup (obj : Object) : Except String Nat :=
  match getInteger lib obj "lexical_close_group" with
  | some group => if 0 ≤ group then .ok group.toNat else .error "invalid integer field 'lexical_close_group'"
  | none => if (get obj "lexical_close_group").isSome then .error "invalid integer field 'lexical_close_group'" else .ok 0

def parseNamespaceScope (obj : Object) : Except String MockNamespaceScopeInfo := do
  let lexicalCloseGroup ← lexicalCloseGroup lib obj
  let name ← optionalString obj "name"
  let isInline ← optionalBool obj "is_inline"
  let isExported ← optionalBool obj "is_exported"
  let reopenPrefix ← optionalString obj "reopen_prefix"
  return { name, isInline, isExported, lexicalCloseGroup, reopenPrefix }

def parseNamespaceScopes (obj : Object) : Except String (List MockNamespaceScopeInfo) :=
  parseObjects (parseNamespaceScope lib) obj "attachment_namespace_chain"

def attachmentInsertionOffset (obj : Object) : Except String (Option Nat) :=
  match getInteger lib obj "attachment_insertion_offset" with
  | some offset =>
    if offset < 0 then .error "invalid integer field 'attachment_insertion_offset'" else .ok (some offset.toNat)
  | none => .ok none

def parseMock (obj : Object) : Except String MockInfo := do
  let qualifiedName ← requireString obj "qualified_name"
  let displayName ← optionalString obj "display_name"
  let definitionFile ← requireString obj "definition_file"
  let kindText ← requireString obj "definition_kind"
  let definitionKind ← parseEnum kindText s!"invalid mock definition_kind '{kindText}'" parseDefinitionKind
  let useFiles ← stringVector obj "use_files"
  let definitionModuleName ← optionalString obj "definition_module_name"
  let enclosingRecordScope ← optionalString obj "enclosing_record_scope"
  let isTemplateSpecialization ← optionalBool obj "is_template_specialization"
  let attachmentNamespaceChain ← parseNamespaceScopes lib obj
  let deriveForVirtual ← optionalBool obj "derive_for_virtual"
  let hasAccessibleDefaultCtor ← optionalBool obj "has_accessible_default_ctor"
  let hasVirtualDestructor ← optionalBool obj "has_virtual_destructor"
  let unhiddenMethodNames ← stringVector obj "unhidden_method_names"
  let constructors ← parseCtors obj
  let methods ← parseMethods obj
  let displayName := if displayName = "" then qualifiedName else displayName
  let attachmentInsertionOffset ← attachmentInsertionOffset lib obj
  return { qualifiedName, definitionFile, definitionKind, useFiles, definitionModuleName, displayName,
           enclosingRecordScope, isTemplateSpecialization, attachmentInsertionOffset, attachmentNamespaceChain,
           deriveForVirtual, hasAccessibleDefaultCtor, hasVirtualDestructor, unhiddenMethodNames, constructors, methods }

structure ReadResult where
  mocks : List MockInfo := []
  mockOutputDomainModules : List String := []
  error : String := ""

/-- The strings before the first entry that is none. -/
def leadingStrings : List Json → List String
  | .str s :: entries => String.ofList s :: leadingStrings entries
  | _ => []

def readMocks (root : Object) (mockOutputDomainModules : List String) : ReadResult :=
  match get root "mocks" with
  | some (.arr _) =>
    match parseObjects (parseMock lib) root "mocks" with
    | .ok mocks => { mocks, mockOutputDomainModules }
    | .error error => { mockOutputDomainModules, error }
  | _ => { mockOutputDomainModules, error := "mock manifest is missing 'mocks'" }

def readModules (root : Object) : ReadResult :=
  match get root "mock_output_domain_modules" with
  | some (.arr entries) =>
    match stringVector root "mock_output_domain_modules" with
    | .ok modules => readMocks lib root modules
    | .error error => { mockOutputDomainModules := leadingStrings entries, error }
  | _ => { error := "mock manifest is missing 'mock_output_domain_modules'" }

def readRoot (root : Object) : ReadResult :=
  match get root "schema" with
  | some (.str schema) =>
    if String.ofList schema = kSchema then readModules lib root
    else { error := s!"unsupported mock manifest schema '{String.ofList schema}' (expected '{kSchema}')" }
  | _ => { error := s!"mock manifest is missing or invalid 'schema' (expected '{kSchema}')" }

/-- `read`, with `llvm::MemoryBuffer::getFile`. -/
def read (getFile : String → Except String (List Char)) (path : String) : ReadResult :=
  match getFile path with
  | .error message => { error := s!"failed to read mock manifest '{path}': {message}" }
  | .ok buffer =>
    match lib.parse buffer with
    | .error message => { error := s!"failed to parse mock manifest '{path}': {message}" }
    | .ok (.obj root) => readRoot lib root
    | .ok _ => { error := "mock manifest root must be an object" }

end

end Gentest.Codegen.MockManifest
