import Gentest.Codegen.ParameterExpansion
import Gentest.Codegen.RegistrationText

/-!
# The code of the wrappers

`render_wrappers` writes for each case the function that calls it: a helper in the
namespace of the test, the fixtures it asks for, and what a benchmark does in each phase.
The code is kept as a list of pieces, so that the texts of a user can be told from what is
fixed.
-/

namespace Gentest.Codegen.RegistrationText

-- ---------------------------------------------------------------------------
-- Pieces
-- ---------------------------------------------------------------------------

inductive Piece
  | fixed (text : String)
  /-- A fixed text with a number behind it. -/
  | numbered (front : String) (n : Nat)
  | user (text : List Char)
  | escaped (text : List Char)

instance : Coe String Piece := ⟨.fixed⟩

def Piece.letters : Piece → List Char
  | .fixed text => text.toList
  | .numbered front n => front.toList ++ Nat.toDigits 10 n
  | .user text => text
  | .escaped text => escapeString text

def written (pieces : List Piece) : List Char := pieces.flatMap Piece.letters

def code (parts : List (List Piece)) : List Piece := parts.flatten

def commaSeparated (parts : List (List Piece)) : List Piece := [Piece.fixed ", "].intercalate parts

-- ---------------------------------------------------------------------------
-- What a wrapper is made for
-- ---------------------------------------------------------------------------

inductive WrapperKind
  | free
  | freeWithFixtures
  | memberEphemeral
  | memberShared
  | memberEphemeralWithFixtures
  | memberSharedWithFixtures
  deriving DecidableEq

/-- The wrapper's name is `kCaseInvoke_` with the index. -/
structure WrapperSpec where
  kind : WrapperKind
  idx : Nat
  callee : String
  method : String := ""
  namespaceParts : List String := []
  fixtures : List FreeFixtureUse := []
  freeArgs : List FreeCallArg := []
  valueArgs : String := ""
  methodIsTemplate : Bool := false
  returnsValue : Bool := false
  returnsAsync : Bool := false
  isMeasured : Bool := false

/-- A case with what only its wrapper reads. -/
structure WrappedCase where
  info : TestCaseInfo
  freeCallArgs : List FreeCallArg := []
  returnsValue : Bool := false

/-- What stands behind the last `::`. -/
def extractMethodName (qualified : String) : String :=
  match (qualified.toList.tails.filter fun tail => "::".toList <+: tail).getLast? with
  | none => qualified
  | some tail => String.ofList (tail.drop 2)

def buildWrapperSpec (c : WrappedCase) (idx : Nat) : WrapperSpec :=
  let test := c.info
  let spec : WrapperSpec :=
    { kind := .free, idx, callee := test.qualifiedName, valueArgs := test.callArguments
      namespaceParts := test.namespaceParts, methodIsTemplate := test.isFunctionTemplate
      isMeasured := test.isBenchmark || test.isJitter, returnsValue := c.returnsValue
      returnsAsync := test.returnsAsync }
  if test.fixtureQualifiedName = "" then
    if test.freeFixtures = [] then spec
    else { spec with kind := .freeWithFixtures, fixtures := test.freeFixtures, freeArgs := c.freeCallArgs }
  else
    let kind : WrapperKind :=
      match test.fixtureLifetime with
      | .memberSuite | .memberGlobal => if test.freeFixtures = [] then .memberShared else .memberSharedWithFixtures
      | .memberEphemeral | .none => if test.freeFixtures = [] then .memberEphemeral else .memberEphemeralWithFixtures
    { spec with
      kind, callee := test.fixtureQualifiedName, method := extractMethodName test.qualifiedName
      fixtures := test.freeFixtures, freeArgs := c.freeCallArgs }

def WrapperSpec.wrapperName (spec : WrapperSpec) : List Piece := [.numbered "kCaseInvoke_" spec.idx]

-- ---------------------------------------------------------------------------
-- Fixtures
-- ---------------------------------------------------------------------------

/-- The fixtures of a call are locals, those of a benchmark members of its state. -/
def benchState : List Piece := ["bench_state."]

def buildFixtureDecls (types : List FreeFixtureUse) : List Piece :=
  types.zipIdx.flatMap fun (fx, i) =>
    [.numbered "    auto fx" i, "_ = ::gentest::detail::FixtureHandle<", .user fx.typeName.toList, ">::empty();\n"]

def buildFixtureStateDecls (types : List FreeFixtureUse) : List Piece :=
  types.zipIdx.flatMap fun (fx, i) =>
    ["        ::gentest::detail::FixtureHandle<", .user fx.typeName.toList, .numbered "> fx" i,
      "_\x7b::gentest::detail::FixtureHandle<", .user fx.typeName.toList, ">::empty()\x7d;\n"]

def hasLocalFixture (types : List FreeFixtureUse) : Bool := types.any fun fx => fx.scope = .localScope

/-- One line for each fixture, which leaves when it cannot be had. -/
def fixtureInits (indent leave : String) (state : List Piece) (types : List FreeFixtureUse) : List Piece :=
  types.zipIdx.flatMap fun (fx, i) =>
    match fx.scope with
    | .localScope =>
      code [[indent, "if (!gentest_init_fixture("], state,
        [.numbered "fx" i, "_, \"", .escaped fx.typeName.toList, "\")) ", leave, ";\n"]]
    | .suite =>
      code [[indent, "if (!gentest_init_shared_fixture("], state,
        [.numbered "fx" i, "_, ::gentest::detail::SharedFixtureScope::Suite, \"", .escaped fx.suiteName.toList,
          "\", \"", .escaped fx.lookupName.toList, "\")) ", leave, ";\n"]]
    | .global =>
      code [[indent, "if (!gentest_init_shared_fixture("], state,
        [.numbered "fx" i, "_, ::gentest::detail::SharedFixtureScope::Global, std::string_view\x7b\x7d, \"",
          .escaped fx.lookupName.toList, "\")) ", leave, ";\n"]]

def buildFixtureInits (types : List FreeFixtureUse) : List Piece := fixtureInits "    " "return" [] types

def buildFixtureAsyncInits (types : List FreeFixtureUse) : List Piece := fixtureInits "    " "co_return" [] types

def buildFixtureBenchInits (types : List FreeFixtureUse) : List Piece :=
  fixtureInits "            " "return" benchState types

/-- The indices of the fixtures that are made for one call. -/
def localFixtures (types : List FreeFixtureUse) : List Nat :=
  (types.zipIdx.filter fun p => p.1.scope = .localScope).map Prod.snd

def buildFixtureSetupFlags (types : List FreeFixtureUse) : List Piece :=
  (localFixtures types).flatMap fun i => [.numbered "    bool fx" i, "_teardown_armed = false;\n"]

def buildFixtureStateSetupFlags (types : List FreeFixtureUse) : List Piece :=
  (localFixtures types).flatMap fun i => [.numbered "        bool fx" i, "_teardown_armed = false;\n"]

def setupTracked (call : String) (state : List Piece) (types : List FreeFixtureUse) : List Piece :=
  (localFixtures types).flatMap fun i =>
    code [["    "], state, [.numbered "fx" i, "_teardown_armed = true;\n", "    ", call], state,
      [.numbered "fx" i, "_.ref());\n"]]

def buildFixtureSetupTracked (state : List Piece) (types : List FreeFixtureUse) : List Piece :=
  setupTracked "gentest_maybe_setup(" state types

def buildFixtureAsyncSetupTracked (types : List FreeFixtureUse) : List Piece :=
  setupTracked "co_await gentest_maybe_async_setup(" [] types

/-- The teardowns, that of the last fixture first. -/
def teardownGuarded (indent call : String) (state : List Piece) (types : List FreeFixtureUse) : List Piece :=
  (localFixtures types).reverse.flatMap fun i =>
    code [[indent, "if ("], state, [.numbered "fx" i, "_teardown_armed) ", call], state,
      [.numbered "fx" i, "_.ref());\n"]]

def buildFixtureTeardownGuarded (state : List Piece) (types : List FreeFixtureUse) : List Piece :=
  teardownGuarded "    " "gentest_maybe_teardown(" state types

def buildFixtureAsyncTeardownGuarded (types : List FreeFixtureUse) : List Piece :=
  teardownGuarded "        " "co_await gentest_maybe_async_teardown(" [] types

-- ---------------------------------------------------------------------------
-- Calls
-- ---------------------------------------------------------------------------

def formatCallArgs (args : List Piece) : List Piece :=
  if written args = [] then ["()"] else code [["("], args, [")"]]

def qualifyGlobalName (parts : List String) (name : List Piece) : List Piece :=
  code [["::"], parts.flatMap fun part => [.user part.toList, "::"], name]

def qualifyGlobalCallee (callee : String) : List Piece :=
  if "::".toList <+: callee.toList then [.user callee.toList] else ["::", .user callee.toList]

def wrapInNamespaces (parts : List String) (body : List Piece) : List Piece :=
  code [parts.flatMap fun part => ["namespace ", .user part.toList, " \x7b\n"], body,
    parts.reverse.flatMap fun part => ["\x7d // namespace ", .user part.toList, "\n"]]

/-- `forward_param_expr` of the parameter of a fixture. -/
def forwardFixture (i : Nat) : List Piece := [.numbered "static_cast<decltype(fx" i, .numbered ")&&>(fx" i, ")"]

def WrapperSpec.helperName (spec : WrapperSpec) : List Piece := [.numbered "__gentest_lookup_helper_" spec.idx]

def WrapperSpec.asyncHelperName (spec : WrapperSpec) : List Piece :=
  [.numbered "__gentest_async_lookup_helper_" spec.idx]

def buildHelperParamDecls (fixtures : List FreeFixtureUse) (includeSelf : Bool) : List Piece :=
  commaSeparated ((if includeSelf then [[Piece.fixed "auto&& self"]] else []) ++
    fixtures.zipIdx.map fun p => [Piece.numbered "auto&& fx" p.2])

def buildHelperBoundArgList (boundArgs : List FreeCallArg) : List Piece :=
  commaSeparated <| boundArgs.map fun
    | .fixture index => forwardFixture index
    | .value expression => [.user expression]

def buildHelperFixtureCallList (state : List Piece) (fixtures : List FreeFixtureUse) : List Piece :=
  commaSeparated (fixtures.zipIdx.map fun p => code [state, [.numbered "fx" p.2, "_"]])

def prependCallArg (firstArg : String) (rest : List Piece) : List Piece :=
  if written rest = [] then [firstArg] else code [[firstArg, ", "], rest]

def WrapperKind.isMember : WrapperKind → Bool
  | .free | .freeWithFixtures => false
  | _ => true

def WrapperKind.withFixtures : WrapperKind → Bool
  | .freeWithFixtures | .memberEphemeralWithFixtures | .memberSharedWithFixtures => true
  | _ => false

def WrapperSpec.callArgs (spec : WrapperSpec) : List Piece :=
  formatCallArgs <|
    if spec.kind.withFixtures then buildHelperBoundArgList spec.freeArgs else [.user spec.valueArgs.toList]

/-- The call in a helper. -/
def WrapperSpec.callExpr (spec : WrapperSpec) : List Piece :=
  if spec.kind.isMember then
    code [["static_cast<decltype(self)&&>(self)", "."], if spec.methodIsTemplate then ["template "] else [],
      .user spec.method.toList :: spec.callArgs]
  else .user spec.callee.toList :: spec.callArgs

def buildHelperDefinition (spec : WrapperSpec) (helperName : List Piece) : List Piece :=
  wrapInNamespaces spec.namespaceParts <|
    code [["static decltype(auto) "], helperName, ["("], buildHelperParamDecls spec.fixtures spec.kind.isMember,
      [") \x7b\n",
       "    return "], spec.callExpr,
      [";\n",
       "\x7d\n\n"]]

def makeInvokeForFree (spec : WrapperSpec) (fn args : List Piece) : List Piece :=
  if spec.returnsValue then code [["[[maybe_unused]] const auto _ = "], fn, args, [";"]]
  else code [["static_cast<void>("], fn, args, [");"]]

-- ---------------------------------------------------------------------------
-- The templates
-- ---------------------------------------------------------------------------

/-- `wrapper_free_test`. -/
def wrapperFreeTest (spec : WrapperSpec) (invoke : List Piece) : List Piece :=
  code [["static void "], spec.wrapperName,
    ["(void* ctx_) \x7b\n",
     "    (void)ctx_;\n",
     "    "], invoke,
    ["\n",
     "\x7d\n",
     "\n"]]

def wrapperFree (spec : WrapperSpec) (invoke : List Piece) : List Piece :=
  code [["static void "], spec.wrapperName,
    ["(void* ctx_) \x7b\n",
     "    (void)ctx_;\n",
     "    const auto phase = ::gentest::detail::bench_phase();\n",
     "    if (phase != ::gentest::detail::BenchPhase::None) \x7b\n",
     "        if (phase == ::gentest::detail::BenchPhase::Call) \x7b\n",
     "            "], invoke,
    ["\n",
     "        \x7d\n",
     "        return;\n",
     "    \x7d\n",
     "    "], invoke,
    ["\n",
     "\x7d\n",
     "\n"]]

def wrapperFreeFixtures (spec : WrapperSpec) (invoke benchInvoke : List Piece) : List Piece :=
  code [["static void "], spec.wrapperName,
    ["(void* ctx_) \x7b\n",
     "    (void)ctx_;\n",
     "    const auto phase = ::gentest::detail::bench_phase();\n",
     "    if (phase != ::gentest::detail::BenchPhase::None) \x7b\n",
     "        struct BenchState \x7b\n"], buildFixtureStateDecls spec.fixtures,
    buildFixtureStateSetupFlags spec.fixtures,
    ["        bool ready = false;\n",
     "        \x7d;\n",
     "        static thread_local BenchState bench_state\x7b\x7d;\n",
     "        if (phase == ::gentest::detail::BenchPhase::Setup) \x7b\n",
     "            bench_state = BenchState\x7b\x7d;\n"], buildFixtureBenchInits spec.fixtures,
    buildFixtureSetupTracked benchState spec.fixtures,
    ["            bench_state.ready = true;\n",
     "            return;\n",
     "        \x7d\n",
     "        if (phase == ::gentest::detail::BenchPhase::Teardown) \x7b\n"],
    buildFixtureTeardownGuarded benchState spec.fixtures,
    ["\n",
     "            bench_state = BenchState\x7b\x7d;\n",
     "            return;\n",
     "        \x7d\n",
     "        if (phase == ::gentest::detail::BenchPhase::Call) \x7b\n",
     "            if (!bench_state.ready) return;\n",
     "            "], benchInvoke,
    ["\n",
     "            return;\n",
     "        \x7d\n",
     "        return;\n",
     "    \x7d\n"], buildFixtureDecls spec.fixtures, buildFixtureInits spec.fixtures,
    buildFixtureSetupFlags spec.fixtures,
    ["    gentest_run_with_local_teardown(\n",
     "        [&] \x7b\n"], buildFixtureSetupTracked [] spec.fixtures, ["            "], invoke,
    ["\n",
     "        \x7d,\n",
     "        [&] \x7b\n"], buildFixtureTeardownGuarded [] spec.fixtures,
    ["        \x7d);\n",
     "\x7d\n",
     "\n"]]

def wrapperEphemeral (spec : WrapperSpec) (invoke benchInvoke : List Piece) : List Piece :=
  code [["static void "], spec.wrapperName,
    ["(void* ctx_) \x7b\n",
     "    (void)ctx_;\n",
     "    const auto phase = ::gentest::detail::bench_phase();\n",
     "    if (phase != ::gentest::detail::BenchPhase::None) \x7b\n",
     "        struct BenchState \x7b\n",
     "            ::gentest::detail::FixtureHandle<", .user spec.callee.toList,
     "> fx_\x7b::gentest::detail::FixtureHandle<", .user spec.callee.toList, ">::empty()\x7d;\n",
     "            bool teardown_armed = false;\n",
     "            bool ready = false;\n",
     "        \x7d;\n",
     "        static thread_local BenchState bench_state\x7b\x7d;\n",
     "        if (phase == ::gentest::detail::BenchPhase::Setup) \x7b\n",
     "            bench_state = BenchState\x7b\x7d;\n",
     "            if (!gentest_init_fixture(bench_state.fx_, \"", .user spec.callee.toList,
     "\")) return;\n",
     "            bench_state.teardown_armed = true;\n",
     "            gentest_maybe_setup(bench_state.fx_.ref());\n",
     "            bench_state.ready = true;\n",
     "            return;\n",
     "        \x7d\n",
     "        if (phase == ::gentest::detail::BenchPhase::Teardown) \x7b\n",
     "            if (bench_state.teardown_armed) gentest_maybe_teardown(bench_state.fx_.ref());\n",
     "            bench_state = BenchState\x7b\x7d;\n",
     "            return;\n",
     "        \x7d\n",
     "        if (phase == ::gentest::detail::BenchPhase::Call) \x7b\n",
     "            if (!bench_state.ready) return;\n",
     "            "], benchInvoke,
    ["\n",
     "            return;\n",
     "        \x7d\n",
     "        return;\n",
     "    \x7d\n",
     "    auto fx_ = ::gentest::detail::FixtureHandle<", .user spec.callee.toList, ">::empty();\n",
     "    if (!gentest_init_fixture(fx_, \"", .user spec.callee.toList, "\")) return;\n",
     "    bool fx_teardown_armed = false;\n",
     "    gentest_run_with_local_teardown(\n",
     "        [&] \x7b\n",
     "            fx_teardown_armed = true;\n",
     "            gentest_maybe_setup(fx_.ref());\n",
     "            "], invoke,
    ["\n",
     "        \x7d,\n",
     "        [&] \x7b\n",
     "            if (fx_teardown_armed) gentest_maybe_teardown(fx_.ref());\n",
     "        \x7d);\n",
     "\x7d\n",
     "\n"]]

def wrapperStateful (spec : WrapperSpec) (invoke : List Piece) : List Piece :=
  code [["static void "], spec.wrapperName,
    ["(void* ctx_) \x7b\n",
     "    auto* fx_ = static_cast<", .user spec.callee.toList, "*>(ctx_);\n",
     "    if (!fx_) \x7b\n",
     "        gentest_record_fixture_failure(\"", .user spec.callee.toList,
     "\", \"instance missing\");\n",
     "        return;\n",
     "    \x7d\n",
     "    const auto phase = ::gentest::detail::bench_phase();\n",
     "    if (phase != ::gentest::detail::BenchPhase::None) \x7b\n",
     "        if (phase == ::gentest::detail::BenchPhase::Setup) \x7b\n",
     "            return;\n",
     "        \x7d\n",
     "        if (phase == ::gentest::detail::BenchPhase::Teardown) \x7b\n",
     "            return;\n",
     "        \x7d\n",
     "        if (phase == ::gentest::detail::BenchPhase::Call) \x7b\n",
     "            "], invoke,
    ["\n",
     "            return;\n",
     "        \x7d\n",
     "        return;\n",
     "    \x7d\n",
     "    "], invoke,
    ["\n",
     "\x7d\n",
     "\n"]]

/-- The wrapper of a member with further fixtures that lives for one call. -/
def wrapperEphemeralFixtures (spec : WrapperSpec) (invoke benchInvoke : List Piece) : List Piece :=
  code [["static void "], spec.wrapperName,
    ["(void* ctx_) \x7b\n",
     "    (void)ctx_;\n",
     "    const auto phase = ::gentest::detail::bench_phase();\n",
     "    if (phase != ::gentest::detail::BenchPhase::None) \x7b\n",
     "        struct BenchState \x7b\n",
     "            ::gentest::detail::FixtureHandle<", .user spec.callee.toList,
     "> fx_\x7b::gentest::detail::FixtureHandle<", .user spec.callee.toList, ">::empty()\x7d;\n"],
    buildFixtureStateDecls spec.fixtures, ["            bool fx_teardown_armed = false;\n"],
    buildFixtureStateSetupFlags spec.fixtures,
    ["            bool ready = false;\n",
     "        \x7d;\n",
     "        static thread_local BenchState bench_state\x7b\x7d;\n",
     "        if (phase == ::gentest::detail::BenchPhase::Setup) \x7b\n",
     "            bench_state = BenchState\x7b\x7d;\n",
     "            if (!gentest_init_fixture(bench_state.fx_, \"", .escaped spec.callee.toList,
     "\")) return;\n",
     "            bench_state.fx_teardown_armed = true;\n",
     "            gentest_maybe_setup(bench_state.fx_.ref());\n"], buildFixtureBenchInits spec.fixtures,
    buildFixtureSetupTracked benchState spec.fixtures,
    ["            bench_state.ready = true;\n",
     "            return;\n",
     "        \x7d\n",
     "        if (phase == ::gentest::detail::BenchPhase::Teardown) \x7b\n"],
    buildFixtureTeardownGuarded benchState spec.fixtures,
    ["            if (bench_state.fx_teardown_armed) gentest_maybe_teardown(bench_state.fx_.ref());\n",
     "            bench_state = BenchState\x7b\x7d;\n",
     "            return;\n",
     "        \x7d\n",
     "        if (phase == ::gentest::detail::BenchPhase::Call) \x7b\n",
     "            if (!bench_state.ready) return;\n",
     "            "], benchInvoke,
    ["\n",
     "            return;\n",
     "        \x7d\n",
     "        return;\n",
     "    \x7d\n",
     "    auto fx_ = ::gentest::detail::FixtureHandle<", .user spec.callee.toList, ">::empty();\n",
     "    if (!gentest_init_fixture(fx_, \"", .escaped spec.callee.toList, "\")) return;\n",
     "    bool fx_teardown_armed = false;\n"], buildFixtureDecls spec.fixtures,
    buildFixtureInits spec.fixtures, buildFixtureSetupFlags spec.fixtures,
    ["    gentest_run_with_local_teardown(\n",
     "        [&] \x7b\n",
     "            fx_teardown_armed = true;\n",
     "            gentest_maybe_setup(fx_.ref());\n"], buildFixtureSetupTracked [] spec.fixtures,
    ["            "], invoke,
    ["\n",
     "        \x7d,\n",
     "        [&] \x7b\n"], buildFixtureTeardownGuarded [] spec.fixtures,
    ["            if (fx_teardown_armed) gentest_maybe_teardown(fx_.ref());\n",
     "        \x7d);\n",
     "\x7d\n\n"]]

/-- The wrapper of a member with further fixtures that is shared. -/
def wrapperStatefulFixtures (spec : WrapperSpec) (invoke benchInvoke : List Piece) : List Piece :=
  code [["static void "], spec.wrapperName,
    ["(void* ctx_) \x7b\n",
     "    auto* fx_ = static_cast<", .user spec.callee.toList, "*>(ctx_);\n",
     "    if (!fx_) \x7b\n",
     "        gentest_record_fixture_failure(\"", .escaped spec.callee.toList,
     "\", \"instance missing\");\n",
     "        return;\n",
     "    \x7d\n",
     "    const auto phase = ::gentest::detail::bench_phase();\n",
     "    if (phase != ::gentest::detail::BenchPhase::None) \x7b\n",
     "        struct BenchState \x7b\n"], buildFixtureStateDecls spec.fixtures,
    buildFixtureStateSetupFlags spec.fixtures,
    ["            bool ready = false;\n",
     "        \x7d;\n",
     "        static thread_local BenchState bench_state\x7b\x7d;\n",
     "        if (phase == ::gentest::detail::BenchPhase::Setup) \x7b\n",
     "            bench_state = BenchState\x7b\x7d;\n"], buildFixtureBenchInits spec.fixtures,
    buildFixtureSetupTracked benchState spec.fixtures,
    ["            bench_state.ready = true;\n",
     "            return;\n",
     "        \x7d\n",
     "        if (phase == ::gentest::detail::BenchPhase::Teardown) \x7b\n"],
    buildFixtureTeardownGuarded benchState spec.fixtures,
    ["            bench_state = BenchState\x7b\x7d;\n",
     "            return;\n",
     "        \x7d\n",
     "        if (phase == ::gentest::detail::BenchPhase::Call) \x7b\n",
     "            if (!bench_state.ready) return;\n",
     "            "], benchInvoke,
    ["\n",
     "            return;\n",
     "        \x7d\n",
     "        return;\n",
     "    \x7d\n"], buildFixtureDecls spec.fixtures, buildFixtureInits spec.fixtures,
    buildFixtureSetupFlags spec.fixtures,
    ["    gentest_run_with_local_teardown(\n",
     "        [&] \x7b\n"], buildFixtureSetupTracked [] spec.fixtures, ["            "], invoke,
    ["\n",
     "        \x7d,\n",
     "        [&] \x7b\n"], buildFixtureTeardownGuarded [] spec.fixtures,
    ["        \x7d);\n",
     "\x7d\n\n"]]

/-- What stands in the place of a wrapper of an asynchronous case. -/
def asyncStub (spec : WrapperSpec) : List Piece :=
  code [["static void "], spec.wrapperName,
    ["(void* ctx_) \x7b\n",
     "    (void)ctx_;\n",
     "#if GENTEST_EXCEPTIONS_ENABLED\n",
     "    throw ::gentest::failure(\"async test invoked through synchronous Case::fn; use Case::async_fn\");\n",
     "#else\n",
     "    std::abort();\n",
     "#endif\n",
     "\x7d\n\n"]]

-- ---------------------------------------------------------------------------
-- Synchronous wrappers
-- ---------------------------------------------------------------------------

/-- A free test without arguments is called by its own name. -/
def WrapperSpec.isSimple (spec : WrapperSpec) : Bool :=
  spec.kind = .free && !spec.isMeasured && !spec.methodIsTemplate && spec.valueArgs = ""

def WrapperSpec.invokeWith (spec : WrapperSpec) (args : List Piece) : List Piece :=
  makeInvokeForFree spec (qualifyGlobalName spec.namespaceParts spec.helperName) args

def appendWrapper (spec : WrapperSpec) : List Piece :=
  if spec.returnsAsync then asyncStub spec
  else if spec.isSimple then
    wrapperFreeTest spec (makeInvokeForFree spec (qualifyGlobalCallee spec.callee)
      (formatCallArgs [.user spec.valueArgs.toList]))
  else
    buildHelperDefinition spec spec.helperName ++
      match spec.kind with
      | .free => wrapperFree spec (spec.invokeWith ["()"])
      | .freeWithFixtures =>
        wrapperFreeFixtures spec (spec.invokeWith (formatCallArgs (buildHelperFixtureCallList [] spec.fixtures)))
          (spec.invokeWith (formatCallArgs (buildHelperFixtureCallList benchState spec.fixtures)))
      | .memberEphemeral =>
        wrapperEphemeral spec (spec.invokeWith ["(fx_.ref())"]) (spec.invokeWith ["(bench_state.fx_.ref())"])
      | .memberShared => wrapperStateful spec (spec.invokeWith ["(*fx_)"])
      | .memberEphemeralWithFixtures =>
        wrapperEphemeralFixtures spec
          (spec.invokeWith (formatCallArgs (prependCallArg "fx_.ref()" (buildHelperFixtureCallList [] spec.fixtures))))
          (spec.invokeWith (formatCallArgs
            (prependCallArg "bench_state.fx_.ref()" (buildHelperFixtureCallList benchState spec.fixtures))))
      | .memberSharedWithFixtures =>
        wrapperStatefulFixtures spec
          (spec.invokeWith (formatCallArgs (prependCallArg "*fx_" (buildHelperFixtureCallList [] spec.fixtures))))
          (spec.invokeWith (formatCallArgs (prependCallArg "*fx_" (buildHelperFixtureCallList benchState spec.fixtures))))

-- ---------------------------------------------------------------------------
-- Asynchronous wrappers
-- ---------------------------------------------------------------------------

def WrapperSpec.awaitWith (spec : WrapperSpec) (args : List Piece) : List Piece :=
  code [["co_await "], qualifyGlobalName spec.namespaceParts spec.asyncHelperName, args, [";"]]

def asyncLocalTeardownCall (bodyCode teardownCode : List Piece) : List Piece :=
  code [
    ["    co_await gentest_run_async_with_local_teardown(\n",
     "        [&]() -> ::gentest::async_test<void> \x7b\n"], bodyCode,
    ["            co_return;\n",
     "        \x7d,\n",
     "        [&]() -> ::gentest::async_test<void> \x7b\n"], teardownCode,
    ["            co_return;\n",
     "        \x7d);\n"]]

def asyncEntrypoint (spec : WrapperSpec) (body : List Piece) : List Piece :=
  code [
    ["static ::gentest::async_test<void> ", .numbered "kCaseAsyncBody_" spec.idx, "(void* ctx_) \x7b\n"], body,
    ["\x7d\n\n",
     "static ::gentest::detail::AsyncTaskPtr ", .numbered "kCaseAsyncInvoke_" spec.idx, "(void* ctx_) \x7b\n",
     .numbered "    return ::gentest::detail::make_async_task(kCaseAsyncBody_" spec.idx, "(ctx_));\n",
     "\x7d\n\n"]]

/-- The fixture of a member that is made for one call. -/
def asyncOwnFixture (spec : WrapperSpec) : List Piece :=
  ["    (void)ctx_;\n",
   "    auto fx_ = ::gentest::detail::FixtureHandle<", .user spec.callee.toList, ">::empty();\n",
   "    if (!gentest_init_fixture(fx_, \"", .escaped spec.callee.toList, "\")) co_return;\n",
   "    bool fx_teardown_armed = false;\n"]

def asyncOwnSetup : List Piece :=
  ["            fx_teardown_armed = true;\n",
   "            co_await gentest_maybe_async_setup(fx_.ref());\n"]

def asyncOwnTeardown : List Piece :=
  ["        if (fx_teardown_armed) co_await gentest_maybe_async_teardown(fx_.ref());\n"]

/-- The fixture of a member that is shared. -/
def asyncSharedFixture (spec : WrapperSpec) : List Piece :=
  ["    auto* fx_ = static_cast<", .user spec.callee.toList, "*>(ctx_);\n",
   "    if (!fx_) \x7b\n",
   "        gentest_record_fixture_failure(\"", .escaped spec.callee.toList, "\", \"instance missing\");\n",
   "        co_return;\n",
   "    \x7d\n"]

def asyncFixtures (spec : WrapperSpec) : List Piece :=
  code [buildFixtureDecls spec.fixtures, buildFixtureAsyncInits spec.fixtures, buildFixtureSetupFlags spec.fixtures]

/-- Without a local fixture there is nothing to tear down. -/
def asyncFixtureCall (spec : WrapperSpec) (invoke : List Piece) : List Piece :=
  if hasLocalFixture spec.fixtures then
    asyncLocalTeardownCall (code [buildFixtureAsyncSetupTracked spec.fixtures, ["            "], invoke, ["\n"]])
      (buildFixtureAsyncTeardownGuarded spec.fixtures)
  else code [["    "], invoke, ["\n"]]

def asyncBody (spec : WrapperSpec) : List Piece :=
  match spec.kind with
  | .free =>
    code [
      ["    (void)ctx_;\n",
       "    "], spec.awaitWith ["()"], ["\n"]]
  | .freeWithFixtures =>
    code [["    (void)ctx_;\n"], asyncFixtures spec,
      asyncFixtureCall spec (spec.awaitWith (formatCallArgs (buildHelperFixtureCallList [] spec.fixtures)))]
  | .memberEphemeral =>
    code [asyncOwnFixture spec,
      asyncLocalTeardownCall (code [asyncOwnSetup, ["            "], spec.awaitWith ["(fx_.ref())"], ["\n"]])
        asyncOwnTeardown]
  | .memberShared => code [asyncSharedFixture spec, ["    "], spec.awaitWith ["(*fx_)"], ["\n"]]
  | .memberEphemeralWithFixtures =>
    code [asyncOwnFixture spec, asyncFixtures spec,
      asyncLocalTeardownCall
        (code [asyncOwnSetup, buildFixtureAsyncSetupTracked spec.fixtures, ["            "],
          spec.awaitWith (formatCallArgs (prependCallArg "fx_.ref()" (buildHelperFixtureCallList [] spec.fixtures))),
          ["\n"]])
        (code [buildFixtureAsyncTeardownGuarded spec.fixtures, asyncOwnTeardown])]
  | .memberSharedWithFixtures =>
    code [asyncSharedFixture spec, asyncFixtures spec,
      asyncFixtureCall spec
        (spec.awaitWith (formatCallArgs (prependCallArg "*fx_" (buildHelperFixtureCallList [] spec.fixtures))))]

def appendAsyncWrapper (spec : WrapperSpec) : List Piece :=
  if spec.returnsAsync then buildHelperDefinition spec spec.asyncHelperName ++ asyncEntrypoint spec (asyncBody spec)
  else []

-- ---------------------------------------------------------------------------
-- All wrappers
-- ---------------------------------------------------------------------------

def wrapperPieces (spec : WrapperSpec) : List Piece := appendWrapper spec ++ appendAsyncWrapper spec

def renderWrappers (cases : List WrappedCase) : List Char :=
  written (cases.zipIdx.flatMap fun (c, idx) => wrapperPieces (buildWrapperSpec c idx))

end Gentest.Codegen.RegistrationText
