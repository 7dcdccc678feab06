import Mathlib.Data.List.Nodup

/-!
# Mock expectations and dispatch

`InstanceState` of `mock.h`: the expectations of each mocked method, the
cursor over them, the freeze flags and the verification. The tuple of a call's
arguments is a list of values of one type; a call's user action runs after the
bookkeeping, outside the lock, and cannot change it.
-/

namespace Gentest.Mock

structure ArgPredicate (V : Type) where
  test : V → Bool
  describe : Option (V → String) := none

structure Expectation (V R : Type) where
  expectedCalls : Nat := 1
  observedCalls : Nat := 0
  allowExcess : Bool := false
  expectedArgs : Option (List V) := none
  argPredicates : Option (List (ArgPredicate V)) := none
  callPredicate : Option (List V → Bool) := none
  action : Option (List V → R) := none
  alreadyVerified : Bool := false

/-- A failure a mock records, by its kind; `text` is what is recorded. -/
inductive MockFailure
  | unexpectedCall (methodName : String)
  | shortfall (expected : Nat) (methodName : String) (observed : Nat)
  | callPredicateMismatch (methodName : String)
  | argumentMismatch (index : Nat) (methodName detail : String)
  deriving DecidableEq, Repr

def MockFailure.text : MockFailure → String
  | .unexpectedCall methodName => s!"unexpected call to {methodName}"
  | .shortfall expected methodName observed =>
    s!"expected {expected} call(s) to {methodName} but observed {observed}"
  | .callPredicateMismatch methodName => s!"call predicate mismatch for {methodName}"
  | .argumentMismatch index methodName detail => s!"argument[{index}] mismatch for {methodName}: {detail}"

variable {Id V R : Type} [DecidableEq Id] [DecidableEq V] [ToString V] [Inhabited R]

-- ---------------------------------------------------------------------------
-- One expectation
-- ---------------------------------------------------------------------------

/-- `verify_calls_or_fail` on the expectation's own counters. -/
def Expectation.verify (methodName : String) (e : Expectation V R) : Expectation V R × List MockFailure :=
  if e.alreadyVerified then (e, [])
  else
    ({ e with alreadyVerified := true },
      if e.observedCalls < e.expectedCalls then [.shortfall e.expectedCalls methodName e.observedCalls] else [])

/-- The first argument that differs, from index `i` on. -/
def reportFirstTupleArgMismatch (methodName : String) (i : Nat) : List V → List V → List MockFailure
  | expected :: es, actual :: as =>
    if expected ≠ actual then [.argumentMismatch i methodName s!"expected {expected}, got {actual}"]
    else reportFirstTupleArgMismatch methodName (i + 1) es as
  | _, _ => []

/-- The first argument whose predicate fails, from index `i` on. -/
def tupleArgsMatchPredicates (methodName : String) (i : Nat) : List (ArgPredicate V) → List V → List MockFailure
  | p :: ps, actual :: as =>
    if p.test actual then tupleArgsMatchPredicates methodName (i + 1) ps as
    else
      [.argumentMismatch i methodName
        (match p.describe with
        | some describe => describe actual
        | none => "predicate mismatch")]
  | _, _ => []

/-- The failures `check_args` records. -/
def Expectation.checkArgs (methodName : String) (e : Expectation V R) (args : List V) : List MockFailure :=
  match e.callPredicate with
  | some p => if p args then [] else [.callPredicateMismatch methodName]
  | none =>
    match e.argPredicates with
    | some ps => tupleArgsMatchPredicates methodName 0 ps args
    | none =>
      match e.expectedArgs with
      | some expected => reportFirstTupleArgMismatch methodName 0 expected args
      | none => []

def Expectation.invoke (e : Expectation V R) (args : List V) : R :=
  match e.action with
  | some action => action args
  | none => default

inductive Setting (V R : Type)
  | expectedCalls (expected : Nat)
  | expected (values : List V)
  | predicates (preds : List (ArgPredicate V))
  | callPredicate (predicate : List V → Bool)
  | allowExcess (enabled : Bool)
  | action (nextAction : List V → R)

def Setting.apply : Setting V R → Expectation V R → Expectation V R
  | .expectedCalls n, e => { e with expectedCalls := n }
  | .expected values, e => { e with expectedArgs := some values }
  | .predicates preds, e => { e with argPredicates := some preds }
  | .callPredicate p, e => { e with callPredicate := some p }
  | .allowExcess enabled, e => { e with allowExcess := enabled }
  | .action nextAction, e => { e with action := some nextAction }

-- ---------------------------------------------------------------------------
-- The methods of one mock
-- ---------------------------------------------------------------------------

structure MethodEntry (V R : Type) where
  methodName : String := ""
  expectations : List (Expectation V R) := []
  nextExpectation : Nat := 0

/-- `methods_`, with one entry for each identity; the order of the list stands
for the map's own. -/
structure InstanceState (Id V R : Type) where
  methods : List (Id × MethodEntry V R) := []
  distinct : (methods.map Prod.fst).Nodup := by exact List.nodup_nil
  runtimeStarted : Bool := false
  niceMode : Bool := false
  frozen : Bool := false

def InstanceState.find (s : InstanceState Id V R) (id : Id) : Option (MethodEntry V R) := s.methods.lookup id

def InstanceState.modify (s : InstanceState Id V R) (id : Id) (f : MethodEntry V R → MethodEntry V R) :
    InstanceState Id V R :=
  { s with
    methods := s.methods.map fun p => (p.1, if p.1 = id then f p.2 else p.2)
    distinct := by simpa [Function.comp_def] using s.distinct }

/-- `methods_[id]`: an empty entry is added where there is none. -/
def InstanceState.ensure (s : InstanceState Id V R) (id : Id) : InstanceState Id V R :=
  if h : id ∈ s.methods.map Prod.fst then s
  else
    { s with
      methods := s.methods ++ [(id, {})]
      distinct := by
        rw [List.map_append]
        refine List.nodup_append.mpr ⟨s.distinct, List.nodup_singleton _, ?_⟩
        rintro a ha b hb rfl
        obtain ⟨q, hq, rfl⟩ := List.mem_map.mp hb
        rw [List.mem_singleton.mp hq] at ha
        exact h ha }

def InstanceState.setNice (s : InstanceState Id V R) (v : Bool) : InstanceState Id V R :=
  if s.frozen then s else { s with niceMode := v }

def InstanceState.pushExpectation (s : InstanceState Id V R) (id : Id) (methodName : String) :
    InstanceState Id V R :=
  if s.frozen then s
  else
    (s.ensure id).modify id fun entry =>
      { entry with
        methodName := if entry.methodName = "" then methodName else entry.methodName
        expectations := entry.expectations ++ [{}] }

/-- A setter called on the `i`-th expectation of a method; `allow_mutation`
reads the flag the expectation shares with its mock. -/
def InstanceState.configure (s : InstanceState Id V R) (id : Id) (i : Nat) (setting : Setting V R) :
    InstanceState Id V R :=
  if s.runtimeStarted then s
  else s.modify id fun entry => { entry with expectations := entry.expectations.modify i setting.apply }

/-- An expectation taken for a call: its index, itself before the call, and
whether the call exceeds it. -/
structure Taken (V R : Type) where
  index : Nat
  expectation : Expectation V R
  unexpected : Bool
  entry : MethodEntry V R

def MethodEntry.tryTakeExpectation (entry : MethodEntry V R) : Option (Taken V R) :=
  match entry.expectations[entry.nextExpectation]? with
  | none => none
  | some e =>
    let observed := e.observedCalls + 1
    some {
      index := entry.nextExpectation
      expectation := e
      unexpected := !e.allowExcess && decide (e.observedCalls ≥ e.expectedCalls)
      entry := { entry with
        expectations := entry.expectations.set entry.nextExpectation { e with observedCalls := observed }
        nextExpectation :=
          if !e.allowExcess && decide (observed ≥ e.expectedCalls) then entry.nextExpectation + 1
          else entry.nextExpectation } }

structure Dispatch (Id V : Type) where
  id : Id
  fallbackId : Id
  methodName : String
  args : List V

/-- What a dispatch did: which expectation of which method it took, what it
recorded and what it returned. -/
structure DispatchResult (Id R : Type) where
  handledBy : Option (Id × Nat)
  failures : List MockFailure
  value : R

def InstanceState.start (s : InstanceState Id V R) : InstanceState Id V R :=
  { s with runtimeStarted := true, frozen := true }

def InstanceState.take (s : InstanceState Id V R) (d : Dispatch Id V) : Option (Id × Taken V R) :=
  match (s.find d.id).bind MethodEntry.tryTakeExpectation with
  | some t => some (d.id, t)
  | none =>
    if d.fallbackId = d.id then none
    else ((s.find d.fallbackId).bind MethodEntry.tryTakeExpectation).map fun t => (d.fallbackId, t)

def InstanceState.dispatchWithFallback (s : InstanceState Id V R) (d : Dispatch Id V) :
    InstanceState Id V R × DispatchResult Id R :=
  match s.take d with
  | none =>
    (s.start, {
      handledBy := none
      failures := if s.niceMode then [] else [.unexpectedCall d.methodName]
      value := default })
  | some (id, t) =>
    (s.start.modify id fun _ => t.entry, {
      handledBy := some (id, t.index)
      failures := (if t.unexpected then [.unexpectedCall d.methodName] else []) ++
        t.expectation.checkArgs d.methodName d.args
      value := t.expectation.invoke d.args })

def dispatch (id : Id) (methodName : String) (args : List V) : Dispatch Id V := ⟨id, id, methodName, args⟩

def MethodEntry.verify (entry : MethodEntry V R) : MethodEntry V R × List MockFailure :=
  ({ entry with expectations := entry.expectations.map fun e => (e.verify entry.methodName).1 },
    entry.expectations.flatMap fun e => (e.verify entry.methodName).2)

/-- `verify_all`, and what it records for each method. -/
def InstanceState.verifyAll (s : InstanceState Id V R) : InstanceState Id V R × List (Id × MockFailure) :=
  ({ s.start with
      methods := s.methods.map fun p => (p.1, p.2.verify.1)
      distinct := by simpa [InstanceState.start, Function.comp_def] using s.distinct },
    s.methods.flatMap fun p => p.2.verify.2.map fun f => (p.1, f))

-- ---------------------------------------------------------------------------
-- Runs
-- ---------------------------------------------------------------------------

inductive Op (Id V R : Type)
  | pushExpectation (id : Id) (methodName : String)
  | configure (id : Id) (i : Nat) (setting : Setting V R)
  | setNice (v : Bool)
  | dispatch (d : Dispatch Id V)
  | verifyAll

def Op.apply (s : InstanceState Id V R) : Op Id V R → InstanceState Id V R
  | .pushExpectation id methodName => s.pushExpectation id methodName
  | .configure id i setting => s.configure id i setting
  | .setNice v => s.setNice v
  | .dispatch d => (s.dispatchWithFallback d).1
  | .verifyAll => s.verifyAll.1

def Op.configures : Op Id V R → Bool
  | .pushExpectation .. => true
  | .configure .. => true
  | .setNice _ => true
  | _ => false

def runOps (s : InstanceState Id V R) (ops : List (Op Id V R)) : InstanceState Id V R := ops.foldl Op.apply s

def runDispatches (s : InstanceState Id V R) (calls : List (Dispatch Id V)) : InstanceState Id V R :=
  calls.foldl (fun s d => (s.dispatchWithFallback d).1) s

/-- `verify_all` called `v` times: the failures of all of them. -/
def verifyTimes : Nat → InstanceState Id V R → List (Id × MockFailure)
  | 0, _ => []
  | v + 1, s => s.verifyAll.2 ++ verifyTimes v s.verifyAll.1

end Gentest.Mock
