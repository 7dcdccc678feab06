import Gentest.Codegen.RegistrationTemplate

/-!
# The fixed texts of a registration

The preambles and the support code of `templates.hpp`, line by line. No line opens a
placeholder.
-/

namespace Gentest.Codegen.RegistrationText

-- ---------------------------------------------------------------------------
-- Lines
-- ---------------------------------------------------------------------------

/-- The text of lines, each with its line feed. -/
def textOf (lines : List String) : List Char := lines.flatMap fun line => line.toList ++ ['\n']

def closed (line : String) : Bool := !opens line.toList

theorem closed_ofList {letters : List Char} (h : opens letters = false) : closed (String.ofList letters) = true := by
  rw [closed, String.toList_ofList, h]
  rfl

theorem all_closed_cons {letters : List Char} {lines : List String} (h : opens letters = false)
    (hlines : lines.all closed = true) : (String.ofList letters :: lines).all closed = true := by
  rw [List.all_cons, closed_ofList h, hlines]
  rfl

theorem opens_textOf {lines : List String} (h : lines.all closed = true) : opens (textOf lines) = false := by
  induction lines with
  | nil => rfl
  | cons line lines ih =>
    rw [List.all_cons, Bool.and_eq_true, closed, Bool.not_eq_true'] at h
    have hsplit : textOf (line :: lines) = line.toList ++ '\n' :: textOf lines := by simp [textOf]
    have hfeed : opens ('\n' :: textOf lines) = false := ih h.2
    rw [hsplit, opens, adjacent_append_cons (by decide), ← opens, ← opens, h.1, hfeed]
    rfl

-- ---------------------------------------------------------------------------
-- The texts
-- ---------------------------------------------------------------------------

def registrationPreambleLight : List String := [
  "#include <array>",
  "#include <span>",
  "#include <string_view>",
  "",
  "#include \"gentest/detail/registration_runtime.h\"",
  "",
  "#if !defined(GENTEST_CASE_API_VERSION) || GENTEST_CASE_API_VERSION < 3 || \\",
  "    !defined(GENTEST_CASE_API_HAS_OWNER) || !GENTEST_CASE_API_HAS_OWNER",
  "#error \"gentest_codegen output requires gentest headers with Case::owner; use matching gentest headers/runtime\"",
  "#endif"]

def registrationPreambleFull : List String := [
  "#include <array>",
  "#include <chrono>",
  "#include <fmt/format.h>",
  "#include <span>",
  "#include <string>",
  "#include <string_view>",
  "#include <type_traits>",
  "#include <utility>",
  "",
  "#include \"gentest/async.h\"",
  "#include \"gentest/detail/generated_runtime.h\"",
  "",
  "#if !defined(GENTEST_CASE_API_VERSION) || GENTEST_CASE_API_VERSION < 3 || \\",
  "    !defined(GENTEST_CASE_API_HAS_OWNER) || !GENTEST_CASE_API_HAS_OWNER",
  "#error \"gentest_codegen output requires gentest headers with Case::owner; use matching gentest headers/runtime\"",
  "#endif"]

def setupSupport : List String := [
  "",
  "namespace \x7b",
  "template <typename T>",
  "inline void gentest_maybe_setup(T& t) \x7b",
  "    if constexpr (std::is_base_of_v<gentest::FixtureSetup, T>) t.setUp();",
  "\x7d",
  "",
  "template <typename T>",
  "inline void gentest_maybe_teardown(T& t) \x7b",
  "    if constexpr (std::is_base_of_v<gentest::FixtureTearDown, T>) t.tearDown();",
  "\x7d",
  "",
  "template <typename T>",
  "inline ::gentest::async_test<void> gentest_maybe_async_setup(T& t) \x7b",
  "    if constexpr (std::is_base_of_v<gentest::AsyncFixtureSetup, T>) \x7b",
  "        co_await t.setUp();",
  "    \x7d else if constexpr (std::is_base_of_v<gentest::FixtureSetup, T>) \x7b",
  "        t.setUp();",
  "    \x7d",
  "    co_return;",
  "\x7d",
  "",
  "template <typename T>",
  "inline ::gentest::async_test<void> gentest_maybe_async_teardown(T& t) \x7b",
  "    if constexpr (std::is_base_of_v<gentest::AsyncFixtureTearDown, T>) \x7b",
  "        co_await t.tearDown();",
  "    \x7d else if constexpr (std::is_base_of_v<gentest::FixtureTearDown, T>) \x7b",
  "        t.tearDown();",
  "    \x7d",
  "    co_return;",
  "\x7d",
  ""]

/-- What is reported of a fixture that could not be had. -/
def failureSupport : List String := [
  "inline void gentest_record_fixture_failure(std::string_view fixture, std::string_view reason) \x7b",
  "    std::string msg =",
  "        reason.empty() ? fmt::format(\"fixture allocation failed for '\x7b\x7d'\", fixture) : fmt::format(\"fixture allocation failed for '\x7b\x7d': \x7b\x7d\", fixture, reason);",
  "    if (::gentest::detail::bench_phase() != ::gentest::detail::BenchPhase::None) \x7b",
  "        ::gentest::detail::record_bench_error(std::move(msg));",
  "        return;",
  "    \x7d",
  "    gentest::detail::record_failure(std::move(msg));",
  "\x7d",
  "",
  "inline void gentest_record_shared_fixture_unavailable(std::string_view fixture, std::string_view reason) \x7b",
  "    std::string msg =",
  "        reason.empty() ? fmt::format(\"shared fixture unavailable for '\x7b\x7d'\", fixture) : fmt::format(\"shared fixture unavailable for '\x7b\x7d': \x7b\x7d\", fixture, reason);",
  "    if constexpr (::gentest::detail::exceptions_enabled) \x7b",
  "        ::gentest::detail::skip_shared_fixture_unavailable(msg);",
  "    \x7d else \x7b",
  "        if (::gentest::detail::bench_phase() != ::gentest::detail::BenchPhase::None) \x7b",
  "            ::gentest::detail::record_bench_error(std::move(msg));",
  "            return;",
  "        \x7d",
  "        ::gentest::detail::record_failure(std::move(msg));",
  "    \x7d",
  "\x7d",
  ""]

def localTeardownSupport : List String := [
  "template <typename TeardownFn>",
  "struct gentest_noexceptions_local_teardown \x7b",
  "    TeardownFn *teardown = nullptr;",
  "    bool        ran      = false;",
  "",
  "    static void run(void *user_data) noexcept \x7b",
  "        auto *state = static_cast<gentest_noexceptions_local_teardown *>(user_data);",
  "        if (!state || state->ran || !state->teardown) return;",
  "        state->ran = true;",
  "        (*state->teardown)();",
  "    \x7d",
  "",
  "    void run_now() noexcept \x7b run(this); \x7d",
  "\x7d;",
  "",
  "template <typename BodyFn, typename TeardownFn>",
  "inline void gentest_run_with_local_teardown(BodyFn &&body, TeardownFn &&teardown) \x7b",
  "#if GENTEST_EXCEPTIONS_ENABLED",
  "    try \x7b",
  "        body();",
  "    \x7d catch (...) \x7b",
  "        try \x7b",
  "            teardown();",
  "        \x7d catch (...) \x7b",
  "        \x7d",
  "        throw;",
  "    \x7d",
  "    teardown();",
  "#else",
  "    auto teardown_fn = std::forward<TeardownFn>(teardown);",
  "    gentest_noexceptions_local_teardown<decltype(teardown_fn)> teardown_state\x7b&teardown_fn\x7d;",
  "    ::gentest::detail::NoExceptionsFatalHookScope            fatal_scope(&decltype(teardown_state)::run, &teardown_state);",
  "    body();",
  "    teardown_state.run_now();",
  "#endif",
  "\x7d",
  ""]

/-- The guard that runs a teardown at the latest when it goes. -/
def asyncTeardownSupport : List String := [
  "template <typename TeardownFn>",
  "struct gentest_async_local_teardown_guard \x7b",
  "    TeardownFn                                  *teardown = nullptr;",
  "    ::gentest::detail::ContextCancelHookToken    cancel_hook;",
  "    bool                                         ran      = false;",
  "",
  "    explicit gentest_async_local_teardown_guard(TeardownFn *teardown_fn)",
  "        : teardown(teardown_fn),",
  "          cancel_hook(::gentest::detail::register_context_cancel_hook(::gentest::detail::ContextCancelHookState\x7b&run, this\x7d)) \x7b\x7d",
  "",
  "    gentest_async_local_teardown_guard(const gentest_async_local_teardown_guard &)            = delete;",
  "    gentest_async_local_teardown_guard &operator=(const gentest_async_local_teardown_guard &) = delete;",
  "",
  "    ~gentest_async_local_teardown_guard() \x7b",
  "        ::gentest::detail::unregister_context_cancel_hook(cancel_hook);",
  "        run_blocking();",
  "    \x7d",
  "",
  "    static void run(void *user_data) noexcept \x7b",
  "        auto *state = static_cast<gentest_async_local_teardown_guard *>(user_data);",
  "        if (!state) return;",
  "        state->run_blocking();",
  "    \x7d",
  "",
  "    ::gentest::async_test<void> run_now() \x7b",
  "        if (!ran && teardown) \x7b",
  "            ran = true;",
  "            co_await (*teardown)();",
  "        \x7d",
  "        co_return;",
  "    \x7d",
  "",
  "    void run_blocking() noexcept \x7b",
  "        if (ran || !teardown) return;",
  "        std::string error;",
  "        if (!::gentest::detail::run_async_task_blocking(run_now(), \"async local fixture teardown\", error)) \x7b",
  "            std::string msg = \"async local fixture teardown failed\";",
  "            if (!error.empty()) \x7b",
  "                msg += \": \";",
  "                msg += error;",
  "            \x7d",
  "            ::gentest::detail::record_failure(std::move(msg));",
  "        \x7d",
  "    \x7d",
  "",
  "\x7d;",
  ""]

/-- The asynchronous body with its teardown. -/
def asyncBodySupport : List String := [
  "template <typename BodyFn, typename TeardownFn>",
  "inline ::gentest::async_test<void> gentest_run_async_with_local_teardown(BodyFn &&body, TeardownFn &&teardown) \x7b",
  "    auto teardown_fn = std::forward<TeardownFn>(teardown);",
  "    gentest_async_local_teardown_guard<decltype(teardown_fn)> teardown_state\x7b&teardown_fn\x7d;",
  "#if GENTEST_EXCEPTIONS_ENABLED",
  "    std::exception_ptr error;",
  "    try \x7b",
  "        co_await body();",
  "    \x7d catch (...) \x7b",
  "        error = std::current_exception();",
  "    \x7d",
  "    if (error) \x7b",
  "        try \x7b",
  "            co_await teardown_state.run_now();",
  "        \x7d catch (...) \x7b",
  "        \x7d",
  "        std::rethrow_exception(error);",
  "    \x7d",
  "    co_await teardown_state.run_now();",
  "#else",
  "    ::gentest::detail::NoExceptionsFatalHookScope fatal_scope(&decltype(teardown_state)::run, &teardown_state);",
  "    co_await body();",
  "    co_await teardown_state.run_now();",
  "#endif",
  "    co_return;",
  "\x7d",
  ""]

def fixtureInitSupport : List String := [
  "template <typename Handle>",
  "inline bool gentest_init_fixture(Handle& handle, std::string_view fixture) \x7b",
  "    if (!handle.init()) \x7b",
  "        gentest_record_fixture_failure(fixture, \"returned null\");",
  "        return false;",
  "    \x7d",
  "    return true;",
  "\x7d",
  "",
  "template <typename T>",
  "inline bool gentest_init_shared_fixture(::gentest::detail::FixtureHandle<T>& handle,",
  "                                        ::gentest::detail::SharedFixtureScope scope,",
  "                                        std::string_view suite,",
  "                                        std::string_view fixture) \x7b",
  "    std::string reason;",
  "    auto shared = ::gentest::detail::get_shared_fixture_typed<T>(scope, suite, fixture, reason);",
  "    if (!shared) \x7b",
  "        gentest_record_shared_fixture_unavailable(fixture, reason);",
  "        return false;",
  "    \x7d",
  "    if (!handle.init_shared(std::move(shared))) \x7b",
  "        gentest_record_fixture_failure(fixture, \"returned null\");",
  "        return false;",
  "    \x7d",
  "    return true;",
  "\x7d",
  "\x7d // namespace"]

def wrapperSupportCommon : List String :=
  setupSupport ++ failureSupport ++ localTeardownSupport ++ asyncTeardownSupport ++ asyncBodySupport ++
    fixtureInitSupport

theorem registrationPreambleLight_closed : registrationPreambleLight.all closed = true := by
  unfold registrationPreambleLight
  repeat refine all_closed_cons rfl ?_
  rfl

theorem registrationPreambleFull_closed : registrationPreambleFull.all closed = true := by
  unfold registrationPreambleFull
  repeat refine all_closed_cons rfl ?_
  rfl

theorem setupSupport_closed : setupSupport.all closed = true := by
  unfold setupSupport
  repeat refine all_closed_cons rfl ?_
  rfl

set_option maxRecDepth 2048 in
theorem failureSupport_closed : failureSupport.all closed = true := by
  unfold failureSupport
  repeat refine all_closed_cons rfl ?_
  rfl

theorem localTeardownSupport_closed : localTeardownSupport.all closed = true := by
  unfold localTeardownSupport
  repeat refine all_closed_cons rfl ?_
  rfl

set_option maxRecDepth 2048 in
theorem asyncTeardownSupport_closed : asyncTeardownSupport.all closed = true := by
  unfold asyncTeardownSupport
  repeat refine all_closed_cons rfl ?_
  rfl

theorem asyncBodySupport_closed : asyncBodySupport.all closed = true := by
  unfold asyncBodySupport
  repeat refine all_closed_cons rfl ?_
  rfl

theorem fixtureInitSupport_closed : fixtureInitSupport.all closed = true := by
  unfold fixtureInitSupport
  repeat refine all_closed_cons rfl ?_
  rfl

theorem wrapperSupportCommon_closed : wrapperSupportCommon.all closed = true := by
  simp only [wrapperSupportCommon, List.all_append, setupSupport_closed, failureSupport_closed,
    localTeardownSupport_closed, asyncTeardownSupport_closed, asyncBodySupport_closed, fixtureInitSupport_closed,
    Bool.and_self]

theorem templates_clean : ∀ text ∈ [textOf registrationPreambleLight, textOf registrationPreambleFull,
    textOf wrapperSupportCommon], ∀ h, ¬spelling h <:+: text := by
  simp only [List.forall_mem_cons]
  exact ⟨not_spelled_of_not_opens (opens_textOf registrationPreambleLight_closed),
    not_spelled_of_not_opens (opens_textOf registrationPreambleFull_closed),
    not_spelled_of_not_opens (opens_textOf wrapperSupportCommon_closed), List.forall_mem_nil _⟩

/-- The texts of `templates.hpp`. -/
def templateTexts : SupportTexts where
  preambleLight := textOf registrationPreambleLight
  preambleFull := textOf registrationPreambleFull
  wrapperSupport := textOf wrapperSupportCommon
  clean := templates_clean

end Gentest.Codegen.RegistrationText
