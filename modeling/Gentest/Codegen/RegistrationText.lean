import Gentest.Codegen.AttributeText
import Gentest.Codegen.FixtureResolution
import Gentest.Lib.Substitution

/-!
# The text of a registration

A registration is rendered block by block, and the blocks are put into a template by
replacing one placeholder after the other in the growing text. A text is its list of
bytes. The passes are written over any type of letters with a key, so that they can be run
with letters that know which block they come from.
-/

namespace Gentest.Codegen.RegistrationText

open Runner (FixtureLifetime)
open Substitution

-- ---------------------------------------------------------------------------
-- Placeholders and templates
-- ---------------------------------------------------------------------------

inductive Placeholder
  | registrationPreamble
  | wrapperSupportCommon
  | registrationCommon
  | forwardDecls
  | caseCount
  | traitDecls
  | globalWrapperImpls
  | wrapperImpls
  | caseInits
  | fixtureRegistrations
  | registerFn
  deriving DecidableEq

def Placeholder.name : Placeholder → String
  | .registrationPreamble => "REGISTRATION_PREAMBLE"
  | .wrapperSupportCommon => "WRAPPER_SUPPORT_COMMON"
  | .registrationCommon => "REGISTRATION_COMMON"
  | .forwardDecls => "FORWARD_DECLS"
  | .caseCount => "CASE_COUNT"
  | .traitDecls => "TRAIT_DECLS"
  | .globalWrapperImpls => "GLOBAL_WRAPPER_IMPLS"
  | .wrapperImpls => "WRAPPER_IMPLS"
  | .caseInits => "CASE_INITS"
  | .fixtureRegistrations => "FIXTURE_REGISTRATIONS"
  | .registerFn => "REGISTER_FN"

def spelling (h : Placeholder) : List Char := '{' :: '{' :: h.name.toList ++ ['}', '}']

def autoGeneratedComment : List Char :=
  "// This file is auto-generated by gentest_codegen.\n// Do not edit manually.\n\n".toList

def pragmaOnce : List Char := "#pragma once\n\n".toList

def preambleGuard : List Char := "#if !defined(GENTEST_TU_REGISTRATION_HEADER_NO_PREAMBLE)\n".toList

def tuRegistrationHeader : Template Placeholder Char where
  head := autoGeneratedComment ++ (pragmaOnce ++ preambleGuard)
  rest := [
    (.registrationPreamble, "\n#endif\n".toList),
    (.wrapperSupportCommon, "\n".toList),
    (.globalWrapperImpls, "\nnamespace gentest::generated::".toList),
    (.registerFn, " \x7b\n".toList),
    (.registrationCommon, "\n\nconstexpr std::array<gentest::Case, ".toList),
    (.caseCount, "> kCases = \x7b\n".toList),
    (.caseInits, "\n\x7d;\n\x7d // namespace\n\x7d // namespace gentest::generated::".toList),
    (.registerFn, "\n\nnamespace gentest::generated::".toList),
    (.registerFn, " \x7b\nstruct ".toList),
    (.registerFn, "_registrar \x7b\n    ".toList),
    (.registerFn, "_registrar() \x7b\n".toList),
    (.fixtureRegistrations, ("        gentest::detail::register_cases(std::span\x7bkCases\x7d);\n    \x7d\n\x7d;\n" ++
      "[[maybe_unused]] const ").toList),
    (.registerFn, "_registrar ".toList),
    (.registerFn, "_instance\x7b\x7d;\n\x7d // namespace gentest::generated::".toList),
    (.registerFn, "\n".toList)]

def registrationCommon : Template Placeholder Char where
  head := "\n".toList
  rest := [
    (.forwardDecls, "\n\nnamespace \x7b\n\n".toList),
    (.traitDecls, "\n".toList)]

-- ---------------------------------------------------------------------------
-- Blocks
-- ---------------------------------------------------------------------------

abbrev Format (ι : Type) := Template ι Char

def quoted (value : String) : List Char := '"' :: escapeString value.toList ++ ['"']

def literalOrView (value : String) : List Char :=
  if value = "" then "std::string_view\x7b\x7d".toList else quoted value

def boolLiteral (value : Bool) : List Char := if value then "true".toList else "false".toList

def formatSvArray (name : String) (values : List String) : List Char :=
  if values = [] then
    "constexpr std::array<std::string_view, 0> ".toList ++ name.toList ++ "\x7b\x7d;\n\n\n".toList
  else
    "constexpr std::array<std::string_view, ".toList ++ (toString values.length).toList ++ "> ".toList ++
      name.toList ++ " = \x7b\n".toList ++
      (values.flatMap fun v => "    \"".toList ++ escapeString v.toList ++ "\",\n".toList) ++ "\n\x7d;\n\n\n".toList

def tagName (idx : Nat) : String := "kTags_" ++ toString idx

def reqName (idx : Nat) : String := "kReqs_" ++ toString idx

/-- `render_trait_arrays`, the declarations. -/
def renderTraitArrays (cases : List TestCaseInfo) : List Char :=
  cases.zipIdx.flatMap fun (test, idx) =>
    formatSvArray (tagName idx) test.tags ++ formatSvArray (reqName idx) test.requirements

def fixtureLifetimeLiteral : FixtureLifetime → List Char
  | .none => "gentest::FixtureLifetime::None".toList
  | .memberEphemeral => "gentest::FixtureLifetime::MemberEphemeral".toList
  | .memberSuite => "gentest::FixtureLifetime::MemberSuite".toList
  | .memberGlobal => "gentest::FixtureLifetime::MemberGlobal".toList

inductive CaseField
  | name
  | wrapper
  | file
  | line
  | isBench
  | isJitter
  | isBaseline
  | tags
  | reqs
  | skipReason
  | shouldSkip
  | fixture
  | lifetime
  | suite
  | asyncWrapper
  | isAsync
  | itemsPerCall
  | owner
  deriving DecidableEq

def caseEntry : Format CaseField where
  head := "    gentest::Case\x7b\n        .name = \"".toList
  rest := [
    (.name, "\",\n        .fn = &".toList),
    (.wrapper, ",\n        .file = \"".toList),
    (.file, "\",\n        .line = ".toList),
    (.line, ",\n        .is_benchmark = ".toList),
    (.isBench, ",\n        .is_jitter = ".toList),
    (.isJitter, ",\n        .is_baseline = ".toList),
    (.isBaseline, ",\n        .tags = std::span\x7b".toList),
    (.tags, "\x7d,\n        .requirements = std::span\x7b".toList),
    (.reqs, "\x7d,\n        .skip_reason = ".toList),
    (.skipReason, ",\n        .should_skip = ".toList),
    (.shouldSkip, ",\n        .fixture = ".toList),
    (.fixture, ",\n        .fixture_lifetime = ".toList),
    (.lifetime, ",\n        .suite = ".toList),
    (.suite, ",\n        .async_fn = ".toList),
    (.asyncWrapper, ",\n        .is_async = ".toList),
    (.isAsync, ",\n        .items_per_call = ".toList),
    (.itemsPerCall, ",\n        .owner = ".toList),
    (.owner, "\n    \x7d,\n\n".toList)]

def caseFieldText (test : TestCaseInfo) (idx : Nat) : CaseField → List Char
  | .name => escapeString test.displayName.toList
  | .wrapper => ("::kCaseInvoke_" ++ toString idx).toList
  | .file => escapeString test.filename.toList
  | .line => (toString test.line).toList
  | .isBench => boolLiteral test.isBenchmark
  | .isJitter => boolLiteral test.isJitter
  | .isBaseline => boolLiteral test.isBaseline
  | .tags => (tagName idx).toList
  | .reqs => (reqName idx).toList
  | .skipReason => literalOrView test.skipReason
  | .shouldSkip => boolLiteral test.shouldSkip
  | .fixture => literalOrView (caseGroupingFixture test).1
  | .lifetime => fixtureLifetimeLiteral (caseGroupingFixture test).2
  | .suite => literalOrView test.suiteName
  | .asyncWrapper =>
    if test.returnsAsync then ("&::kCaseAsyncInvoke_" ++ toString idx).toList else "nullptr".toList
  | .isAsync => boolLiteral test.returnsAsync
  | .itemsPerCall => (toString test.itemsPerCall ++ "ULL").toList
  | .owner => literalOrView test.owner

def renderCaseEntries (cases : List TestCaseInfo) : List Char :=
  cases.zipIdx.flatMap fun (test, idx) => caseEntry.fill id (caseFieldText test idx)

/-- The type that a fixture is registered with, from the global namespace. -/
def registrationTypeName (fx : FixtureDeclInfo) : List Char :=
  let typeName := if fx.registrationTypeName = "" then fx.qualifiedName.toList else fx.registrationTypeName.toList
  if "::".toList <+: typeName then typeName else ':' :: ':' :: typeName

def renderFixtureRegistration (fx : FixtureDeclInfo) : List Char :=
  if fx.scope = .localScope then []
  else
    let scopeLiteral := if fx.scope = .suite then "::gentest::detail::SharedFixtureScope::Suite"
      else "::gentest::detail::SharedFixtureScope::Global"
    let suiteLiteral := if fx.scope = .suite then quoted fx.suiteName else "std::string_view\x7b\x7d".toList
    "        ::gentest::detail::register_shared_fixture<".toList ++ registrationTypeName fx ++ ">(".toList ++
      scopeLiteral.toList ++ ", ".toList ++ suiteLiteral ++ ", ".toList ++ quoted fx.qualifiedName ++ ");\n".toList

def renderFixtureRegistrations (fixtures : List FixtureDeclInfo) : List Char :=
  fixtures.flatMap renderFixtureRegistration

def needsFullRegistrationSupport (cases : List TestCaseInfo) (fixtures : List FixtureDeclInfo) (hasMocks : Bool) :
    Bool :=
  fixtures ≠ [] || hasMocks || cases.any fun test =>
    test.isBenchmark || test.isJitter || test.fixtureQualifiedName ≠ "" || test.freeFixtures ≠ [] ||
      test.isFunctionTemplate || test.callArguments ≠ "" || test.returnsAsync

/-- The fixed texts of the preamble and of the support code, which spell no placeholder. -/
structure SupportTexts where
  preambleLight : List Char
  preambleFull : List Char
  wrapperSupport : List Char
  clean : ∀ text ∈ [preambleLight, preambleFull, wrapperSupport], ∀ h, ¬spelling h <:+: text

/-- The blocks of `RenderedRegistrationCore` under their placeholders, with the texts that
depend on it and the name of the registrar. `renderWrappers` stands for `render_wrappers`. -/
def renderedBlocks (texts : SupportTexts) (renderWrappers : List TestCaseInfo → List Char)
    (cases : List TestCaseInfo) (fixtures : List FixtureDeclInfo) (hasMocks : Bool) (registerFn : List Char) :
    Placeholder → List Char
  | .registrationPreamble =>
    if needsFullRegistrationSupport cases fixtures hasMocks then texts.preambleFull else texts.preambleLight
  | .wrapperSupportCommon =>
    if needsFullRegistrationSupport cases fixtures hasMocks then texts.wrapperSupport else []
  | .registrationCommon => registrationCommon.fill id spelling
  | .forwardDecls => []
  | .caseCount => (toString cases.length).toList
  | .traitDecls => renderTraitArrays cases
  | .globalWrapperImpls => renderWrappers cases
  | .wrapperImpls => renderWrappers cases
  | .caseInits =>
    if cases = [] then "    // No test cases discovered during code generation.\n".toList
    else renderCaseEntries cases
  | .fixtureRegistrations => renderFixtureRegistrations fixtures
  | .registerFn => registerFn

-- ---------------------------------------------------------------------------
-- The passes
-- ---------------------------------------------------------------------------

section Passes

variable {α : Type} (key : α → Char) (embed : Char → α) (insert : Placeholder → List Char → List α)
  (block : Placeholder → List Char)

def replacePlaceholder (h : Placeholder) (text : List Char) (output : List α) : List α :=
  replaceAll key (spelling h) (insert h text) output

/-- The template fragment is no block: its letters are the template's own. -/
def applyRegistrationCore (output : List α) : List α :=
  let replace (h : Placeholder) := replacePlaceholder key insert h (block h)
  let output := replace .registrationPreamble output
  let output := replace .wrapperSupportCommon output
  let output := replaceAll key (spelling .registrationCommon) ((block .registrationCommon).map embed) output
  let output := replace .forwardDecls output
  let output := replace .caseCount output
  let output := replace .traitDecls output
  let output :=
    if Substitution.Occurs key (spelling .globalWrapperImpls) output then
      replacePlaceholder key insert .wrapperImpls [] (replace .globalWrapperImpls output)
    else replace .wrapperImpls output
  let output := replace .caseInits output
  replace .fixtureRegistrations output

/-- The text of a registration file around its includes; a file of its own (`textual`)
starts without the comment and the guard of a header. -/
def registrationBody (textual : Bool) : List α :=
  let body := (tuRegistrationHeader.fill id spelling).map embed
  let body := if textual then replaceAll key pragmaOnce [] (replaceAll key autoGeneratedComment [] body) else body
  replacePlaceholder key insert .registerFn (block .registerFn) (applyRegistrationCore key embed insert block body)

end Passes

end Gentest.Codegen.RegistrationText
