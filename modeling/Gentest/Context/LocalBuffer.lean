import Gentest.Async.ContextClose
import Mathlib.Logic.Function.Basic

/-!
# The thread-local buffer of the current test context

A thread has at most one current test context. What a test records goes to a
buffer of the thread that belongs to that context and is moved into the context
when another one becomes current. Scope objects make a context current and put
back the one before; they are closed in the reverse order of their opening, so
a thread keeps them as a stack.

The thread is seen between two operations of the code that runs on it. The
callbacks that a stop request runs are such code too: they run while the
request is open.
-/

namespace Gentest.Context

open Gentest.Async.ContextClose (ContextState)
open Gentest.Runner (FailureLoc TestContextInfo)

-- ---------------------------------------------------------------------------
-- Source files of failures
-- ---------------------------------------------------------------------------

/-- A lexically normal path so far: its names, last first, and whether a
separator follows them. -/
structure NormalPath where
  rooted : Bool
  names : List (List Char) := []
  separator : Bool := false
  deriving DecidableEq, Repr

/-- An empty name stands between two separators, before the first and after
the last. -/
def NormalPath.add (path : NormalPath) (name : List Char) : NormalPath :=
  if name = [] ∨ name = ['.'] then { path with separator := true }
  else if name = ['.', '.'] then
    match path.names with
    | last :: names =>
      if last = ['.', '.'] then { path with names := name :: path.names, separator := false }
      else { path with names := names, separator := true }
    | [] => if path.rooted then path else { path with names := [name], separator := false }
  else { path with names := name :: path.names, separator := false }

def NormalPath.toChars (path : NormalPath) : List Char :=
  let names := ['/'].intercalate path.names.reverse
  let tail := if path.separator ∧ path.names ≠ [] ∧ path.names.head? ≠ some ['.', '.']
    then ['/'] else []
  let chars := (if path.rooted then ['/'] else []) ++ names ++ tail
  if chars = [] then ['.'] else chars

/-- `std::filesystem::path::lexically_normal` with `/` as the only separator. -/
def lexicallyNormal (file : List Char) : List Char :=
  if file = [] then []
  else ((file.splitOn '/').foldl NormalPath.add { rooted := file.head? = some '/' }).toChars

/-- Drops what stands before the first occurrence of the marker. -/
def keepFrom (marker : String) (file : List Char) : Option (List Char) :=
  file.tails.find? marker.toList.isPrefixOf

def normalizeFailureFile (file : String) : String :=
  if file = "" then ""
  else
    let normal := lexicallyNormal file.toList
    let kept := keepFrom "tests/" normal <|> keepFrom "include/" normal <|>
      keepFrom "src/" normal <|> keepFrom "tools/" normal
    String.ofList (kept.getD normal)

-- ---------------------------------------------------------------------------
-- State
-- ---------------------------------------------------------------------------

abbrev ContextId := Nat

inductive CurrentContextRole
  | none
  | owner
  | adopted
  deriving DecidableEq, Repr

structure TestContext where
  info : TestContextInfo := {}
  state : ContextState := .closed
  adoptedContexts : Nat := 0
  logCount : Nat := 0
  recentLogLimit : Nat := 0
  recentLogs : List String := []
  deriving DecidableEq, Repr

structure TestContextLocalBuffer where
  owner : Option ContextId := none
  failures : List String := []
  failureLocations : List FailureLoc := []
  logs : List String := []
  eventLines : List String := []
  eventKinds : List Char := []
  deriving DecidableEq, Repr

def TestContextLocalBuffer.empty (buffer : TestContextLocalBuffer) : Bool :=
  buffer.failures.isEmpty && buffer.failureLocations.isEmpty && buffer.logs.isEmpty &&
    buffer.eventLines.isEmpty && buffer.eventKinds.isEmpty

def TestContextLocalBuffer.clear (buffer : TestContextLocalBuffer) : TestContextLocalBuffer :=
  { owner := buffer.owner }

structure Saved where
  previous : Option ContextId
  previousRole : CurrentContextRole
  deriving DecidableEq, Repr

inductive Scope
  /-- `CurrentTestContextScope`. -/
  | testContext (saved : Saved)
  /-- `CurrentTestScope`. -/
  | test (ctx : Option ContextId) (saved : Saved)
  /-- `CurrentContextLease`. -/
  | lease (leased : Option ContextId) (saved : Saved)
  /-- The scope inside `request_active_test_context_stop`, while the stop
  callbacks run. `role` is the one `request_context_stop` puts back, and a
  `CurrentTestScope` that is being closed goes on with `finishing`. -/
  | stopRequest (ctx : ContextId) (role : CurrentContextRole) (saved : Saved)
      (finishing : Option Saved)
  deriving DecidableEq, Repr

structure Thread where
  contexts : ContextId → TestContext := fun _ => {}
  currentTest : Option ContextId := none
  currentContextRole : CurrentContextRole := .none
  currentBuffer : TestContextLocalBuffer := {}
  scopes : List Scope := []

inductive Halt
  /-- `fail_without_active_context`. -/
  | withoutActiveContext (operation : String)
  /-- `require_owner_context` from an adopted context. -/
  | adoptedContext (operation : String)
  /-- `wait_for_adopted_contexts` waits for a lease of its own thread. -/
  | waitsForItself
  /-- A scope is closed that nobody opened. -/
  | noScope
  deriving DecidableEq, Repr

-- ---------------------------------------------------------------------------
-- The buffer and the current context
-- ---------------------------------------------------------------------------

def Thread.modifyContext (t : Thread) (ctx : ContextId) (f : TestContext → TestContext) : Thread :=
  { t with contexts := Function.update t.contexts ctx (f (t.contexts ctx)) }

def TestContext.append (ctx : TestContext) (buffer : TestContextLocalBuffer) : TestContext :=
  { ctx with
    info := { ctx.info with
      failures := ctx.info.failures ++ buffer.failures
      failureLocations := ctx.info.failureLocations ++ buffer.failureLocations
      logs := ctx.info.logs ++ buffer.logs
      eventLines := ctx.info.eventLines ++ buffer.eventLines
      eventKinds := ctx.info.eventKinds ++ buffer.eventKinds } }

def Thread.flushCurrentBufferFor (t : Thread) (ctx : Option ContextId) : Thread :=
  match ctx with
  | none => t
  | some c =>
    if t.currentBuffer.owner ≠ some c ∨ t.currentBuffer.empty then t
    else
      { t.modifyContext c (·.append t.currentBuffer) with
        currentBuffer := t.currentBuffer.clear }

def Thread.setCurrentTest (t : Thread) (ctx : Option ContextId) (role : CurrentContextRole) :
    Thread :=
  let flushed := if t.currentTest.isSome then t.flushCurrentBufferFor t.currentTest else t
  { flushed with
    currentTest := ctx
    currentContextRole := if ctx.isSome then role else .none
    currentBuffer := { flushed.currentBuffer with owner := ctx } }

/-- The branch of `prepare_current_failure_buffer` and of `log` that takes the
buffer over from a foreign owner. -/
def Thread.takeBuffer (t : Thread) : Thread :=
  if t.currentBuffer.owner ≠ t.currentTest then
    let flushed := t.flushCurrentBufferFor t.currentBuffer.owner
    { flushed with currentBuffer := { flushed.currentBuffer with owner := t.currentTest } }
  else t

def Thread.acceptsLateTestOperation (t : Thread) (ctx : Option ContextId) : Bool :=
  ctx.any fun c => (t.contexts c).state != .closed

def Thread.requireOwnerContext (t : Thread) (operation : String) : Except Halt Unit :=
  if !t.acceptsLateTestOperation t.currentTest then .error (.withoutActiveContext operation)
  else if t.currentContextRole = .owner then .ok ()
  else .error (.adoptedContext operation)

def Thread.prepareCurrentFailureBuffer (t : Thread) (operation : String) : Except Halt Thread := do
  t.requireOwnerContext operation
  return t.takeBuffer

def TestContextLocalBuffer.addFailure (buffer : TestContextLocalBuffer) (msg : String)
    (loc : FailureLoc) : TestContextLocalBuffer :=
  { buffer with
    failures := buffer.failures ++ [msg]
    failureLocations := buffer.failureLocations ++ [loc]
    eventLines := buffer.eventLines ++ [msg]
    eventKinds := buffer.eventKinds ++ ['F'] }

def TestContext.markFailed (ctx : TestContext) : TestContext :=
  { ctx with info := { ctx.info with hasFailures := true } }

/-- What `record_failure` and `record_failure_at` have in common. -/
def Thread.record (t : Thread) (msg : String) (loc : FailureLoc) : Except Halt Thread := do
  let prepared ← t.prepareCurrentFailureBuffer "assertion/expectation recorded"
  let added := { prepared with currentBuffer := prepared.currentBuffer.addFailure msg loc }
  return match t.currentTest with
    | some c => added.modifyContext c .markFailed
    | none => added

def Thread.recordFailure (t : Thread) (msg : String) : Except Halt Thread :=
  t.record msg { file := "", line := 0 }

def Thread.recordFailureAt (t : Thread) (msg file : String) (line : Nat) : Except Halt Thread :=
  t.record msg { file := normalizeFailureFile file, line := line }

/-- The last logs of a context, as many as its limit lets it keep. -/
def TestContext.countLog (ctx : TestContext) (message : String) : TestContext :=
  { ctx with
    logCount := ctx.logCount + 1
    recentLogs :=
      if ctx.recentLogLimit ≠ 0 then
        let logs := ctx.recentLogs ++ [message]
        logs.drop (logs.length - ctx.recentLogLimit)
      else [] }

def Thread.log (t : Thread) (message : String) : Except Halt Thread :=
  if !t.acceptsLateTestOperation t.currentTest then .error (.withoutActiveContext "log called")
  else
    let taken := t.takeBuffer
    let added := { taken with
      currentBuffer := { taken.currentBuffer with logs := taken.currentBuffer.logs ++ [message] } }
    .ok <| match t.currentTest with
      | some c => added.modifyContext c (·.countLog message)
      | none => added

-- ---------------------------------------------------------------------------
-- Scopes
-- ---------------------------------------------------------------------------

def Thread.saved (t : Thread) : Saved := ⟨t.currentTest, t.currentContextRole⟩

def Thread.restore (t : Thread) (saved : Saved) : Thread :=
  t.setCurrentTest saved.previous saved.previousRole

def Thread.push (t : Thread) (scope : Scope) : Thread := { t with scopes := scope :: t.scopes }

def startContext (recentLogLimit : Nat) (ctx : TestContext) : TestContext :=
  { ctx with state := .running, recentLogLimit := recentLogLimit }

def closeContextIfReleased (ctx : TestContext) : TestContext :=
  if ctx.adoptedContexts ≠ 0 ∨ ctx.state = .running then ctx else { ctx with state := .closed }

def Thread.openTestContextScope (t : Thread) (ctx : Option ContextId) : Thread :=
  (t.setCurrentTest ctx .owner).push (.testContext t.saved)

def Thread.openTestScope (t : Thread) (ctx : Option ContextId) : Thread :=
  (t.setCurrentTest ctx .owner).push (.test ctx t.saved)

def Thread.acquireAdoptedContext (t : Thread) : Option ContextId → Thread
  | none => t
  | some c => t.modifyContext c fun ctx => { ctx with adoptedContexts := ctx.adoptedContexts + 1 }

def Thread.openLease (t : Thread) (ctx : Option ContextId) : Thread :=
  ((t.acquireAdoptedContext ctx).setCurrentTest ctx .adopted).push (.lease ctx t.saved)

/-- Releases a lease; the last one closes a context that is no longer running. -/
def Thread.releaseAdoptedContext (t : Thread) : Option ContextId → Thread
  | none => t
  | some c => t.modifyContext c fun ctx =>
    let released := { ctx with adoptedContexts := ctx.adoptedContexts - 1 }
    if ctx.adoptedContexts = 1 then closeContextIfReleased released else released

/-- The scope of a stop request ends. A `CurrentTestScope` that finishes its
context waits for the leases and closes it. -/
def Thread.leaveStopRequest (t : Thread) (ctx : ContextId) (saved : Saved) :
    Option Saved → Except Halt Thread
  | none => .ok (t.restore saved)
  | some finishing =>
    let left := t.restore saved
    if (left.contexts ctx).adoptedContexts ≠ 0 then .error .waitsForItself
    else .ok ((left.modifyContext ctx fun c => { c with state := .closed }).restore finishing)

/-- `request_active_test_context_stop` up to the callbacks of the stop source,
which `request_context_stop` runs under an adopted role. A closed context has
nothing to stop. -/
def Thread.requestActiveTestContextStop (t : Thread) (ctx : ContextId)
    (finishing : Option Saved) : Except Halt Thread :=
  let entered := t.setCurrentTest (some ctx) .owner
  if (entered.contexts ctx).state = .closed then entered.leaveStopRequest ctx t.saved finishing
  else
    let stopping := entered.modifyContext ctx fun c => { c with state := .stopping }
    let overridden :=
      if stopping.currentTest = some ctx ∧ stopping.currentContextRole = .owner then
        { stopping with currentContextRole := .adopted }
      else stopping
    .ok (overridden.push (.stopRequest ctx entered.currentContextRole t.saved finishing))

def Thread.close (t : Thread) : Except Halt Thread :=
  match t.scopes with
  | [] => .error .noScope
  | scope :: scopes =>
    let popped := { t with scopes := scopes }
    match scope with
    | .testContext saved => .ok (popped.restore saved)
    | .test none _ => .ok popped
    | .test (some ctx) saved => popped.requestActiveTestContextStop ctx (some saved)
    | .lease leased saved => .ok ((popped.restore saved).releaseAdoptedContext leased)
    | .stopRequest ctx role saved finishing =>
      { popped with currentContextRole := role }.leaveStopRequest ctx saved finishing

-- ---------------------------------------------------------------------------
-- Runs
-- ---------------------------------------------------------------------------

inductive Op
  | startContext (ctx : ContextId) (recentLogLimit : Nat)
  | openTestContextScope (ctx : Option ContextId)
  | openTestScope (ctx : Option ContextId)
  | openLease (ctx : Option ContextId)
  | requestStop (ctx : ContextId)
  | close
  | recordFailure (msg : String)
  | recordFailureAt (msg file : String) (line : Nat)
  | log (message : String)
  | flushCurrentBufferFor (ctx : Option ContextId)
  deriving DecidableEq, Repr

def Thread.step (t : Thread) : Op → Except Halt Thread
  | .startContext ctx recentLogLimit => .ok (t.modifyContext ctx (Context.startContext recentLogLimit))
  | .openTestContextScope ctx => .ok (t.openTestContextScope ctx)
  | .openTestScope ctx => .ok (t.openTestScope ctx)
  | .openLease ctx => .ok (t.openLease ctx)
  | .requestStop ctx => t.requestActiveTestContextStop ctx none
  | .close => t.close
  | .recordFailure msg => t.recordFailure msg
  | .recordFailureAt msg file line => t.recordFailureAt msg file line
  | .log message => t.log message
  | .flushCurrentBufferFor ctx => .ok (t.flushCurrentBufferFor ctx)

def Thread.run (t : Thread) (ops : List Op) : Option Thread :=
  Interleaving.run (fun t op => (t.step op).toOption) t ops

inductive Entry
  | failure (msg : String) (loc : FailureLoc)
  | log (message : String)
  deriving DecidableEq, Repr

def Op.entry : Op → Option Entry
  | .recordFailure msg => some (.failure msg {})
  | .recordFailureAt msg file line => some (.failure msg ⟨normalizeFailureFile file, line⟩)
  | .log message => some (.log message)
  | _ => none

/-- What the operation records, with the context that is current as it does. -/
def Thread.recording (t : Thread) (op : Op) : List (ContextId × Entry) :=
  match t.currentTest, op.entry with
  | some c, some e => [(c, e)]
  | _, _ => []

def Thread.recordings (t : Thread) : List Op → List (ContextId × Entry)
  | [] => []
  | op :: ops =>
    match t.step op with
    | .ok next => t.recording op ++ next.recordings ops
    | .error _ => []

end Gentest.Context
