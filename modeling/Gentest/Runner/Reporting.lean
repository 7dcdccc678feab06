import Gentest.Runner.CaseResult
import Mathlib.Algebra.Order.Group.Nat
import Mathlib.Tactic.Ring

/-!
# Counters, results and the JUnit document

A run is a sequence of case events: a statically skipped case, an invoked
case, a case skipped because its fixture is unavailable. `applyAll` counts and
records them in order. The main result says that the counters partition the
results, that the two counters the exit code reads are zero exactly when
nothing went wrong, and that the JUnit document shows the same numbers.

The document is modelled as a tree; how its texts are escaped is not part of
this module.
-/

namespace Gentest.Runner

-- ---------------------------------------------------------------------------
-- The JUnit writer
-- ---------------------------------------------------------------------------

structure JUnitTestcase where
  classname : String
  name : String
  time : Rat
  requirements : List String
  /-- The `<skipped>` element, with its message attribute when there is one. -/
  skipped : Option (Option String)
  /-- One `<failure>` element each. -/
  failures : List String
  deriving DecidableEq, Repr

structure JUnitTestsuite where
  tests : Nat
  failures : Nat
  skipped : Nat
  errors : Nat
  testcases : List JUnitTestcase
  systemErr : List String
  deriving DecidableEq, Repr

def ReportItem.toTestcase (it : ReportItem) : JUnitTestcase where
  classname := it.suite
  name := it.name
  time := it.timeS
  requirements := it.requirements
  skipped := if it.skipped then some (if it.skipReason.isEmpty then none else some it.skipReason)
    else none
  failures := it.failures

def writeJunitReport (acc : RunAccumulator) : JUnitTestsuite where
  tests := acc.reportItems.length
  failures := acc.reportItems.countP fun it => !it.failures.isEmpty
  skipped := acc.reportItems.countP fun it => it.skipped
  errors := acc.infraErrors.length
  testcases := acc.reportItems.map ReportItem.toTestcase
  systemErr := acc.infraErrors

-- ---------------------------------------------------------------------------
-- Sequences of case results
-- ---------------------------------------------------------------------------

/-- How one planned case comes to its result. An invoked case is counted by
the caller right before `finish_invoke_result`, on every path of the runner. -/
inductive CaseEvent
  | staticSkip (test : Case)
  | invoke (test : Case) (inv : InvokeResult)
  | syntheticSkip (test : Case) (reason : String) (infraFailure : Bool)
  deriving DecidableEq, Repr

def CaseEvent.apply : CaseEvent → RunState → RunResult × RunState
  | .staticSkip test, s =>
    let out := makeStaticSkipResult test s
    (out.1, out.2.record test out.1)
  | .invoke test inv, s =>
    let out := finishInvokeResult test inv s.countTotal
    (out.1, out.2.record test out.1)
  | .syntheticSkip test reason infraFailure, s =>
    (syntheticSkipResult reason infraFailure, recordSyntheticSkip test reason infraFailure s)

def applyAll : List CaseEvent → RunState → List RunResult × RunState
  | [], s => ([], s)
  | event :: events, s =>
    let out := event.apply s
    let rest := applyAll events out.2
    (out.1 :: rest.1, rest.2)

def CaseEvent.runtimeBlocked : CaseEvent → Bool
  | .invoke _ inv => inv.runtimeBlocked
  | _ => false

def RunState.start (recordResults withAcc : Bool) : RunState where
  recordResults := recordResults
  acc := if withAcc then some {} else none

def ReportItem.shown (it : ReportItem) : Bool × List String := (it.skipped, it.failures)

def RunResult.shown (rr : RunResult) : Bool × List String := (rr.skipped, rr.failures)

theorem recordCaseResult_shown (acc : RunAccumulator) (test : Case) (rr : RunResult) :
    (recordCaseResult acc test rr true).reportItems.map ReportItem.shown =
      acc.reportItems.map ReportItem.shown ++ [rr.shown] := by
  unfold recordCaseResult recordFailureSummary
  split <;> simp [ReportItem.shown, RunResult.shown]

/-- The report items as the document shows them, when results are recorded. -/
def RunState.shown (s : RunState) : List (Bool × List String) :=
  match s.acc with
  | some acc => if s.recordResults then acc.reportItems.map ReportItem.shown else []
  | none => []

theorem shown_of_reportItems {s s' : RunState} (hr : s'.recordResults = s.recordResults)
    (hi : s'.reportItems = s.reportItems) : s'.shown = s.shown := by
  unfold RunState.shown
  unfold RunState.reportItems at hi
  rw [hr]
  cases ha : s.acc <;> cases ha' : s'.acc <;> simp_all

/-- One event: a coherent result, one more counted case, one more item. -/
structure Counted (o : Outcome) (runtimeBlocked : Bool) (s : RunState)
    (out : RunResult × RunState) : Prop where
  outcome : out.1.outcome = o
  coherent : out.1.Coherent
  counters : out.2.counters = o.tally runtimeBlocked s.countTotal.counters
  recordResults : out.2.recordResults = s.recordResults
  shown : out.2.acc.isSome = true → s.recordResults = true → out.2.shown = s.shown ++ [out.1.shown]
  acc : out.2.acc.isSome = s.acc.isSome

theorem Produces.record {s : RunState} {out : RunResult × RunState} (test : Case)
    (h : Produces o rb s.countTotal out) : Counted o rb s (out.1, out.2.record test out.1) := by
  refine ⟨h.outcome, h.coherent, h.counters, h.recordResults, ?_, ?_⟩
  · intro ha hr
    have hshown := shown_of_reportItems h.recordResults h.reportItems
    have hr' : out.2.recordResults = true := h.recordResults.trans hr
    cases hacc : out.2.acc with
    | none => simp [RunState.record, hacc] at ha
    | some acc =>
      have hout : out.2.shown = acc.reportItems.map ReportItem.shown := by
        simp [RunState.shown, hacc, hr']
      have hstart : s.countTotal.shown = s.shown := rfl
      simp only [RunState.record, RunState.shown, hacc, Option.map_some, hr', ↓reduceIte,
        recordCaseResult_shown]
      rw [← hout, hshown, hstart]
      rfl
  · have hi := congrArg Option.isSome h.reportItems
    simpa [RunState.record, RunState.reportItems, RunState.countTotal] using hi

theorem CaseEvent.apply_counted (event : CaseEvent) (s : RunState) :
    ∃ o, Counted o event.runtimeBlocked s (event.apply s) ∧
      (event.runtimeBlocked = true → o = .blocked) := by
  cases event with
  | staticSkip test =>
    have h : Produces .skip false s.countTotal (makeStaticSkipResult test s) :=
      ⟨rfl, ⟨by simp [makeStaticSkipResult], by simp [makeStaticSkipResult]⟩, rfl, rfl, rfl⟩
    exact ⟨_, h.record test, by simp [CaseEvent.runtimeBlocked]⟩
  | invoke test inv =>
    refine ⟨_, (finishInvokeResult_produces test inv s.countTotal).record test, ?_⟩
    intro h
    simp only [CaseEvent.runtimeBlocked] at h
    simp [InvokeResult.outcome, h]
  | syntheticSkip test reason infraFailure =>
    cases infraFailure with
    | true =>
      have h : Produces .blocked false s.countTotal (syntheticSkipResult reason true,
          { s with counters := Outcome.tally .blocked false s.countTotal.counters }) :=
        ⟨rfl, ⟨by simp [syntheticSkipResult], by simp [syntheticSkipResult]⟩, rfl, rfl, rfl⟩
      exact ⟨_, h.record test, by simp⟩
    | false =>
      have h : Produces .skip false s.countTotal (syntheticSkipResult reason false,
          { s with counters := Outcome.tally .skip false s.countTotal.counters }) :=
        ⟨rfl, ⟨by simp [syntheticSkipResult], by simp [syntheticSkipResult]⟩, rfl, rfl, rfl⟩
      exact ⟨_, h.record test, by simp [CaseEvent.runtimeBlocked]⟩

def outcomes (o : Outcome) (rrs : List RunResult) : Nat := rrs.countP fun rr => rr.outcome == o

@[simp] theorem outcomes_cons (o : Outcome) (rr : RunResult) (rrs : List RunResult) :
    outcomes o (rr :: rrs) = outcomes o rrs + if rr.outcome = o then 1 else 0 := by
  simp [outcomes, List.countP_cons]

theorem outcomes_eq_zero : outcomes o rrs = 0 ↔ ∀ rr ∈ rrs, rr.outcome ≠ o := by
  simp [outcomes, List.countP_eq_zero]

/-- What a sequence of results adds to the counters it started from. -/
structure Adds (rrs : List RunResult) (runtimeBlocked : Nat) (c c' : TestCounters) : Prop where
  total : c'.total = c.total + rrs.length
  passed : c'.passed = c.passed + outcomes .pass rrs
  failed : c'.failed = c.failed + outcomes .fail rrs + outcomes .xpass rrs
  skipped : c'.skipped = c.skipped + outcomes .skip rrs + outcomes .xfail rrs
  blocked : c'.blocked = c.blocked + outcomes .blocked rrs
  xfail : c'.xfail = c.xfail + outcomes .xfail rrs
  xpass : c'.xpass = c.xpass + outcomes .xpass rrs
  failures : c'.failures = c.failures + outcomes .fail rrs + outcomes .xpass rrs + runtimeBlocked
  runtimeBlocked : runtimeBlocked ≤ outcomes .blocked rrs

theorem Adds.nil (c : TestCounters) : Adds [] 0 c c := by
  constructor <;> simp [outcomes]

theorem Adds.cons {rr : RunResult} {c c' : TestCounters} {blocked : Bool}
    (hb : blocked = true → rr.outcome = .blocked)
    (h : Adds rrs n (rr.outcome.tally blocked { c with total := c.total + 1 }) c') :
    Adds (rr :: rrs) (n + if blocked then 1 else 0) c c' := by
  obtain ⟨ht, hp, hf, hs, hk, hx, hy, hn, hle⟩ := h
  cases ho : rr.outcome <;> cases blocked <;> simp [Outcome.tally, ho] at ht hp hf hs hk hx hy hn hb <;>
    constructor <;> simp [ho] <;> omega

theorem length_eq_outcomes (rrs : List RunResult) :
    rrs.length = outcomes .pass rrs + outcomes .fail rrs + outcomes .skip rrs +
      outcomes .blocked rrs + outcomes .xfail rrs + outcomes .xpass rrs := by
  induction rrs with
  | nil => rfl
  | cons rr rrs ih =>
    cases ho : rr.outcome <;> simp [ho] <;> omega

/-- A whole sequence, from any state: coherent results, the counters moved by
exactly their outcomes, and one shown item a result. -/
theorem applyAll_adds (events : List CaseEvent) (s : RunState) :
    (∀ rr ∈ (applyAll events s).1, rr.Coherent) ∧
      Adds (applyAll events s).1 (events.countP CaseEvent.runtimeBlocked) s.counters
        (applyAll events s).2.counters ∧
      ((applyAll events s).2.acc.isSome = true → s.recordResults = true →
        (applyAll events s).2.shown = s.shown ++ (applyAll events s).1.map RunResult.shown) ∧
      (applyAll events s).2.recordResults = s.recordResults ∧
      (applyAll events s).2.acc.isSome = s.acc.isSome := by
  induction events generalizing s with
  | nil => exact ⟨by simp [applyAll], .nil _, by simp [applyAll], rfl, rfl⟩
  | cons event events ih =>
    obtain ⟨o, h, hblocked⟩ := event.apply_counted s
    obtain ⟨hcoh, hadds, hshown, hrec, hacc⟩ := ih (event.apply s).2
    refine ⟨?_, ?_, ?_, hrec.trans h.recordResults, hacc.trans h.acc⟩
    · intro rr hrr
      rcases List.mem_cons.mp hrr with rfl | hrr
      · exact h.coherent
      · exact hcoh rr hrr
    · rw [h.counters, ← h.outcome] at hadds
      rw [List.countP_cons]
      exact Adds.cons (fun hb => h.outcome.trans (hblocked hb)) hadds
    · intro ha hr
      have hstep := h.shown (hacc.symm.trans ha) hr
      have hrest := hshown ha (h.recordResults.trans hr)
      simp only [applyAll, List.map_cons]
      rw [hrest, hstep, List.append_assoc, List.singleton_append]

theorem countP_shown {items : List ReportItem} {rrs : List RunResult}
    (h : items.map ReportItem.shown = rrs.map RunResult.shown) (p : Bool × List String → Bool) :
    items.countP (fun it => p it.shown) = rrs.countP fun rr => p rr.shown := by
  have hi := List.countP_map (p := p) (f := ReportItem.shown) (l := items)
  have hr := List.countP_map (p := p) (f := RunResult.shown) (l := rrs)
  rw [h] at hi
  exact hi.symm.trans hr

theorem countP_failures (h : ∀ rr ∈ rrs, RunResult.Coherent rr) :
    (rrs.countP fun rr => !rr.failures.isEmpty) = outcomes .fail rrs + outcomes .xpass rrs := by
  induction rrs with
  | nil => rfl
  | cons rr rrs ih =>
    have hrr := (h rr (by simp)).failures
    rw [List.countP_cons, ih fun r hr => h r (List.mem_cons_of_mem _ hr)]
    cases ho : rr.outcome <;> simp_all <;> omega

theorem countP_skipped (h : ∀ rr ∈ rrs, RunResult.Coherent rr) :
    (rrs.countP fun rr => rr.skipped) =
      outcomes .skip rrs + outcomes .xfail rrs + outcomes .blocked rrs := by
  induction rrs with
  | nil => rfl
  | cons rr rrs ih =>
    have hrr := (h rr (by simp)).skipped
    rw [List.countP_cons, ih fun r hr => h r (List.mem_cons_of_mem _ hr)]
    cases ho : rr.outcome <;> simp_all <;> omega

theorem Adds.partition (h : Adds rrs n {} c) :
    c.total = c.passed + c.failed + c.skipped + c.blocked ∧ c.xfail ≤ c.skipped ∧
      c.xpass ≤ c.failed ∧ c.failures = c.failed + n := by
  obtain ⟨ht, hp, hf, hs, hb, hx, hy, hn, -⟩ := h
  have hlen := length_eq_outcomes rrs
  dsimp only at ht hp hf hs hb hx hy hn
  omega

theorem Adds.ok_iff (h : Adds rrs n {} c) :
    (c.failures = 0 ∧ c.blocked = 0) ↔ ∀ rr ∈ rrs,
      rr.outcome ≠ .fail ∧ rr.outcome ≠ .xpass ∧ rr.outcome ≠ .blocked := by
  obtain ⟨-, -, -, -, hb, -, -, hn, hle⟩ := h
  dsimp only at hb hn
  have hzero : (c.failures = 0 ∧ c.blocked = 0) ↔
      outcomes .fail rrs = 0 ∧ outcomes .xpass rrs = 0 ∧ outcomes .blocked rrs = 0 := by omega
  rw [hzero, outcomes_eq_zero, outcomes_eq_zero, outcomes_eq_zero]
  constructor
  · rintro ⟨hf, hx, hb⟩ rr hrr
    exact ⟨hf rr hrr, hx rr hrr, hb rr hrr⟩
  · intro h
    exact ⟨fun rr hrr => (h rr hrr).1, fun rr hrr => (h rr hrr).2.1, fun rr hrr => (h rr hrr).2.2⟩

/-- A document whose items show coherent results counts what the outcomes do,
and no coherent result is both failed and skipped. -/
theorem writeJunitReport_agrees {acc : RunAccumulator} {rrs : List RunResult}
    (hshown : acc.reportItems.map ReportItem.shown = rrs.map RunResult.shown)
    (hcoh : ∀ rr ∈ rrs, rr.Coherent) :
    (writeJunitReport acc).tests = rrs.length ∧
      (writeJunitReport acc).failures = outcomes .fail rrs + outcomes .xpass rrs ∧
      (writeJunitReport acc).skipped =
        outcomes .skip rrs + outcomes .xfail rrs + outcomes .blocked rrs ∧
      ∀ tc ∈ (writeJunitReport acc).testcases, ¬(tc.failures ≠ [] ∧ tc.skipped.isSome = true) := by
  refine ⟨?_, ?_, ?_, ?_⟩
  · simpa [writeJunitReport] using congrArg List.length hshown
  · rw [← countP_failures hcoh]
    exact countP_shown hshown fun shown => !shown.2.isEmpty
  · rw [← countP_skipped hcoh]
    exact countP_shown hshown fun shown => shown.1
  · intro tc htc
    obtain ⟨it, hit, rfl⟩ := List.mem_map.mp htc
    have hmem : it.shown ∈ rrs.map RunResult.shown := hshown ▸ List.mem_map_of_mem hit
    obtain ⟨rr, hrr, heq⟩ := List.mem_map.mp hmem
    have hs : rr.skipped = it.skipped := congrArg Prod.fst heq
    have hf : rr.failures = it.failures := congrArg Prod.snd heq
    rintro ⟨hfail, hskip⟩
    have hfail' := (hcoh rr hrr).failures.mp (hf ▸ hfail)
    have hskip' : it.skipped = true := by
      cases h : it.skipped <;> simp [ReportItem.toTestcase, h] at hskip ⊢
    have hskip' := (hcoh rr hrr).skipped.mp (hs.trans hskip')
    rcases hfail' with h | h <;> simp [h] at hskip'

/-- Every sequence of case results from zero counters: the outcomes partition
`total`, the counters of the exit code are zero exactly when no result is
`Fail`, `XPass` or `Blocked`, every result's recorded fields follow from its
outcome, and the JUnit document of the recorded results shows these numbers
with no test case both failed and skipped. -/
theorem outcome_partition (recordResults withAcc : Bool) (events : List CaseEvent) :
    let out := applyAll events (.start recordResults withAcc)
    let c := out.2.counters
    c.total = c.passed + c.failed + c.skipped + c.blocked ∧ c.xfail ≤ c.skipped ∧
      c.xpass ≤ c.failed ∧
      c.failures = c.failed + events.countP CaseEvent.runtimeBlocked ∧
      ((c.failures = 0 ∧ c.blocked = 0) ↔ ∀ rr ∈ out.1,
        rr.outcome ≠ .fail ∧ rr.outcome ≠ .xpass ∧ rr.outcome ≠ .blocked) ∧
      (∀ rr ∈ out.1,
        (rr.skipped = true ↔ rr.outcome = .skip ∨ rr.outcome = .xfail ∨ rr.outcome = .blocked) ∧
        (rr.failures ≠ [] ↔ rr.outcome = .fail ∨ rr.outcome = .xpass)) ∧
      (withAcc = true → recordResults = true → ∃ acc, out.2.acc = some acc ∧
        (writeJunitReport acc).tests = c.total ∧ (writeJunitReport acc).failures = c.failed ∧
        (writeJunitReport acc).skipped = c.skipped + c.blocked ∧
        ∀ tc ∈ (writeJunitReport acc).testcases, ¬(tc.failures ≠ [] ∧ tc.skipped.isSome = true)) := by
  intro out c
  obtain ⟨hcoh, hadds, hshown, hrec, hacc⟩ := applyAll_adds events (.start recordResults withAcc)
  have hadds : Adds out.1 _ {} c := hadds
  obtain ⟨hpart, hxfail, hxpass, hfailures⟩ := hadds.partition
  refine ⟨hpart, hxfail, hxpass, hfailures, hadds.ok_iff,
    fun rr hrr => ⟨(hcoh rr hrr).skipped, (hcoh rr hrr).failures⟩, ?_⟩
  rintro rfl rfl
  obtain ⟨acc, ha⟩ := Option.isSome_iff_exists.mp hacc
  have hitems : acc.reportItems.map ReportItem.shown = out.1.map RunResult.shown := by
    have hs := hshown hacc rfl
    simp only [RunState.shown, ha, hrec] at hs
    exact hs
  obtain ⟨ht, hf, hs, hboth⟩ := writeJunitReport_agrees hitems hcoh
  refine ⟨acc, ha, ?_, ?_, ?_, hboth⟩
  · rw [ht, hadds.total, Nat.zero_add]
  · rw [hf, hadds.failed, Nat.zero_add]
  · rw [hs, hadds.skipped, hadds.blocked, Nat.zero_add, Nat.zero_add]

end Gentest.Runner
