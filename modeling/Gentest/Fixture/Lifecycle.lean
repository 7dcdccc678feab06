import Gentest.Fixture.Registration
import Gentest.Runner.ResultModel

/-!
# Setup, lookup and teardown of shared fixtures

`setup_shared_fixtures`, `teardown_shared_fixtures` and `get_shared_fixture`
over the registry. Every section that holds the registry lock is one step;
between two of them, and while a callback runs, other code sees the registry
as the last section left it, and the model keeps that list of moments. A
callback is run at most once per entry and phase, so its behaviour is a
function of the entry's index. Console output is left out.
-/

namespace Gentest.Fixture

open Gentest.Runner (TestContextInfo)

-- ---------------------------------------------------------------------------
-- One callback
-- ---------------------------------------------------------------------------

inductive CallbackExit
  | returns
  | skip
  | assertion (message : String)
  | stdException (what : String)
  | unknown
  deriving DecidableEq, Repr

/-- What a callback did: the text in its `error` parameter, its context when
the scope around it is closed, and the thread's bench error slot. -/
structure CallbackRun where
  exit : CallbackExit := .returns
  error : String := ""
  ctx : TestContextInfo := {}
  benchError : String := ""
  deriving DecidableEq, Repr

structure CreateRun extends CallbackRun where
  result : Option Address := none
  deriving DecidableEq, Repr

def firstRecordedFailure (ctx : TestContextInfo) : String := ctx.failures.headD ""

/-- The context is the one `make_active_test_context` made, so it is there. -/
def resolveFixtureContextIssue (ctx : TestContextInfo) (benchError currentError : String)
    (caughtAssertion caughtRuntimeSkip : Bool) : String :=
  if caughtAssertion && firstRecordedFailure ctx != "" then firstRecordedFailure ctx
  else if currentError != "" then currentError
  else if firstRecordedFailure ctx != "" then firstRecordedFailure ctx
  else if benchError != "" then benchError
  else if ctx.runtimeSkipRequested then
    if ctx.runtimeSkipReason != "" then ctx.runtimeSkipReason else "skip requested"
  else if caughtRuntimeSkip then "skip requested without active runtime skip state"
  else currentError

/-- The local `error` after the `catch` clauses. -/
def CallbackRun.caughtError (r : CallbackRun) : String :=
  match r.exit with
  | .returns => r.error
  | .skip => r.error
  | .assertion message => message
  | .stdException what => s!"std::exception: {what}"
  | .unknown => "unknown exception"

def CallbackRun.caughtAssertion (r : CallbackRun) : Bool :=
  match r.exit with
  | .assertion _ => true
  | _ => false

def CallbackRun.issue (r : CallbackRun) : String :=
  resolveFixtureContextIssue r.ctx r.benchError r.caughtError r.caughtAssertion (r.exit == .skip)

/-- `run_fixture_phase` and its `error_out`. -/
def runFixturePhase (r : CallbackRun) : Bool × String := (r.issue == "", r.issue)

def CreateRun.returned (r : CreateRun) : Option Address :=
  match r.exit with
  | .returns => r.result
  | _ => none

def formatFixtureError (stage detail : String) : String :=
  if detail = "" then s!"fixture {stage} failed"
  else if stage = "allocation" ∧ detail = "returned null" then "fixture allocation returned null"
  else if stage = "allocation" ∧ detail.startsWith "std::exception:" then s!"fixture construction threw {detail}"
  else if stage = "allocation" ∧ detail = "unknown exception" then "fixture construction threw unknown exception"
  else s!"fixture {stage} failed: {detail}"

structure FixtureBehaviour where
  create : CreateRun := {}
  setup : CallbackRun := {}
  teardown : CallbackRun := {}
  deriving DecidableEq, Repr

abbrev Behaviour := Nat → FixtureBehaviour

-- ---------------------------------------------------------------------------
-- The run
-- ---------------------------------------------------------------------------

inductive Call
  | create (index : Nat) (suite : String)
  | setup (index : Nat) (instancePtr : Address)
  | teardown (index : Nat) (instancePtr : Address)
  deriving DecidableEq, Repr

def Call.index : Call → Nat
  | .create i _ => i
  | .setup i _ => i
  | .teardown i _ => i

def Call.createIndex? : Call → Option Nat
  | .create i _ => some i
  | _ => none

def Call.teardownIndex? : Call → Option Nat
  | .teardown i _ => some i
  | _ => none

/-- The registry as other code sees it, and the entries whose teardown is
over by then. -/
structure Moment where
  reg : SharedFixtureRegistry
  released : List Nat
  deriving DecidableEq, Repr

structure World where
  reg : SharedFixtureRegistry
  released : List Nat := []
  calls : List Call := []
  moments : List Moment := []
  deriving DecidableEq, Repr

def World.moment (w : World) : Moment := ⟨w.reg, w.released⟩

def World.commit (w : World) (reg : SharedFixtureRegistry) : World :=
  { w with reg, moments := w.moments ++ [⟨reg, w.released⟩] }

def World.call (w : World) (c : Call) : World := { w with calls := w.calls ++ [c] }

def SharedFixtureRegistry.update (reg : SharedFixtureRegistry) (i : Nat)
    (f : SharedFixtureEntry → SharedFixtureEntry) : SharedFixtureRegistry :=
  { reg with entries := reg.entries.modify i f }

def World.edit (w : World) (i : Nat) (f : SharedFixtureEntry → SharedFixtureEntry) : World :=
  w.commit (w.reg.update i f)

def SharedFixtureEntry.reset (e : SharedFixtureEntry) : SharedFixtureEntry :=
  { e with instancePtr := none, initialized := false, initializing := false, failed := false, error := "" }

def resetSharedFixtureRunState (reg : SharedFixtureRegistry) : SharedFixtureRegistry :=
  { reg with entries := reg.entries.map SharedFixtureEntry.reset }

def SharedFixtureEntry.settled (e : SharedFixtureEntry) : Bool := e.initialized || e.initializing || e.failed

/-- The factory of entry `i` and what `instance` and `error` are after it. -/
def createInstance (b : Behaviour) (i : Nat) (e : SharedFixtureEntry) (w : World) : World × Option Address × String :=
  match e.create with
  | none => (w, none, "missing factory")
  | some _ =>
    let r := (b i).create
    let error := r.issue
    (w.call (.create i e.suite), if error != "" then none else r.returned, error)

/-- The setup callback of entry `i`, if it has one. -/
def setupInstance (b : Behaviour) (i : Nat) (e : SharedFixtureEntry) (p : Address) (w : World) :
    World × Bool × String :=
  match e.setup with
  | none => (w, true, "")
  | some _ => (w.call (.setup i p), runFixturePhase (b i).setup)

/-- The rest of a turn once the factory has returned `p`. -/
def setupCreated (b : Behaviour) (i : Nat) (e : SharedFixtureEntry) (p : Address) (w : World) : World × Bool :=
  let w := w.edit i fun e => { e with instancePtr := some p }
  match setupInstance b i e p w with
  | (w, false, error) =>
    (w.edit i fun e => { e with
      initializing := false, initialized := false, failed := true, error := formatFixtureError "setup" error }, false)
  | (w, true, _) =>
    (w.edit i fun e => { e with initializing := false, initialized := true, failed := false, error := "" }, true)

/-- One turn of the `for (;;)` of `setup_shared_fixtures`, for the entry it
picked; returns whether the fixture is up. -/
def setupEntry (b : Behaviour) (i : Nat) (e : SharedFixtureEntry) (w : World) : World × Bool :=
  let w := w.edit i fun e => { e with initializing := true }
  match createInstance b i e w with
  | (w, none, error) =>
    let fixtureError :=
      if e.create.isSome then formatFixtureError "allocation" error
      else "fixture allocation failed: missing factory"
    (w.edit i fun e => { e with
      initializing := false, initialized := false, failed := true, error := fixtureError, instancePtr := none }, false)
  | (w, some p, _) => setupCreated b i e p w

/-- The loop; each turn settles an entry, so one turn per entry and one to
find nothing left are enough (`setupLoop_settles`). -/
def setupLoop (b : Behaviour) : Nat → World → Bool → World × Bool
  | 0, w, ok => (w, ok)
  | fuel + 1, w, ok =>
    if w.reg.teardownInProgress then (w, ok)
    else
      match w.reg.entries.findIdx? fun e => !e.settled with
      | none => (w, ok)
      | some i =>
        match w.reg.entries[i]? with
        | none => (w, ok)
        | some e =>
          let (w, up) := setupEntry b i e w
          setupLoop b fuel w (ok && up)

def setupSharedFixtures (b : Behaviour) (gate : SharedFixtureRunGate) (thread : Nat) (w : World) : World × Bool :=
  if !gate.active || gate.owner != thread then (w, false)
  else if w.reg.registrationError then (w, false)
  else
    let w := w.commit (resetSharedFixtureRunState w.reg)
    setupLoop b (w.reg.entries.length + 1) w true

structure TeardownWorkItem where
  index : Nat
  fixtureName : String
  instancePtr : Address
  teardown : Option Address
  deriving DecidableEq, Repr

def SharedFixtureEntry.unfinished (e : SharedFixtureEntry) : Bool :=
  e.instancePtr.isNone || (!e.initialized && !e.failed)

def teardownWorkItem (i : Nat) (e : SharedFixtureEntry) : Option TeardownWorkItem :=
  if e.unfinished then none else e.instancePtr.map fun p => ⟨i, e.fixtureName, p, e.teardown⟩

def teardownWork (entries : List SharedFixtureEntry) : List TeardownWorkItem :=
  (List.range entries.length).reverse.filterMap fun i => entries[i]?.bind (teardownWorkItem i)

def dropUnfinished (e : SharedFixtureEntry) : SharedFixtureEntry :=
  if e.unfinished then { e with instancePtr := none, initialized := false } else e

structure Teardown where
  world : World
  errors : List String := []
  ok : Bool := true
  deriving DecidableEq, Repr

def callTeardown (b : Behaviour) (t : Teardown) (item : TeardownWorkItem) : Teardown :=
  match item.teardown with
  | none => t
  | some _ =>
    let w := t.world.call (.teardown item.index item.instancePtr)
    match runFixturePhase (b item.index).teardown with
    | (true, _) => { t with world := w }
    | (false, error) =>
      { world := w, ok := false,
        errors := t.errors ++ [s!"fixture teardown failed for {item.fixtureName}: {error}"] }

def teardownItem (b : Behaviour) (t : Teardown) (item : TeardownWorkItem) : Teardown :=
  let t := callTeardown b t item
  let w := { t.world with released := item.index :: t.world.released }
  { t with
    world := w.edit item.index fun e => { e with instancePtr := none, initialized := false, initializing := false } }

def teardownSharedFixtures (b : Behaviour) (gate : SharedFixtureRunGate) (thread : Nat) (w : World) : Teardown :=
  if !gate.active || gate.owner != thread then
    { world := w, errors := ["shared fixture teardown requires an active runtime session"], ok := false }
  else
    let w := w.commit { w.reg with teardownInProgress := true }
    let work := teardownWork w.reg.entries
    let w := w.commit { w.reg with entries := w.reg.entries.map dropUnfinished }
    let t := work.foldl (teardownItem b) { world := w }
    { t with world := t.world.commit { t.world.reg with teardownInProgress := false } }

/-- A run: setup, then teardown. The tests in between only look fixtures up. -/
def fixtureRun (b : Behaviour) (gate : SharedFixtureRunGate) (thread : Nat) (reg : SharedFixtureRegistry) : World :=
  (teardownSharedFixtures b gate thread (setupSharedFixtures b gate thread { reg }).1).world

-- ---------------------------------------------------------------------------
-- Lookup
-- ---------------------------------------------------------------------------

def suiteScopeMatches (fixtureSuite requestedSuite : String) : Bool :=
  if fixtureSuite = "" then true
  else if requestedSuite = fixtureSuite then true
  else if requestedSuite.utf8ByteSize ≤ fixtureSuite.utf8ByteSize ∨
      ¬fixtureSuite.toList.isPrefixOf requestedSuite.toList then false
  else
    match requestedSuite.toList.drop fixtureSuite.toList.length with
    | [] => true
    | '/' :: _ => true
    | ':' :: ':' :: _ => true
    | _ => false

def SharedFixtureEntry.serves (e : SharedFixtureEntry) (scope : SharedFixtureScope) (suite fixtureName : String) :
    Bool :=
  e.scope == scope && e.fixtureName == fixtureName && suiteScopeMatches e.suite suite

/-- The loop that keeps the entry with the longest matching suite, from index
`i` on. -/
def selectFrom (scope : SharedFixtureScope) (suite fixtureName : String) :
    List SharedFixtureEntry → Nat → Option (Nat × SharedFixtureEntry) → Option (Nat × SharedFixtureEntry)
  | [], _, selected => selected
  | e :: rest, i, selected =>
    if e.serves scope suite fixtureName &&
        selected.all (fun s => e.suite.utf8ByteSize > s.2.suite.utf8ByteSize) then
      selectFrom scope suite fixtureName rest (i + 1) (some (i, e))
    else selectFrom scope suite fixtureName rest (i + 1) selected

def selectSharedFixture (reg : SharedFixtureRegistry) (scope : SharedFixtureScope) (suite fixtureName : String) :
    Option (Nat × SharedFixtureEntry) :=
  selectFrom scope suite fixtureName reg.entries 0 none

/-- The pointer, and the text left in `error` where there is none. -/
def getSharedFixture (reg : SharedFixtureRegistry) (scope : SharedFixtureScope) (suite fixtureName : String) :
    Option Address × String :=
  if reg.registrationError then (none, reg.registrationErrors.headD "fixture registration failed")
  else
    match selectSharedFixture reg scope suite fixtureName with
    | none => (none, if reg.teardownInProgress then "fixture teardown in progress" else "fixture not registered")
    | some (_, e) =>
      if e.failed then (none, e.error)
      else if e.initializing then (none, "fixture initialization in progress")
      else if !e.initialized then
        (none, if reg.teardownInProgress then "fixture teardown in progress" else "fixture not initialized")
      else
        match e.instancePtr with
        | none => (none, "fixture allocation returned null")
        | some p => (some p, "")

end Gentest.Fixture
