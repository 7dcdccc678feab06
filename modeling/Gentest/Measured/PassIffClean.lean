import Gentest.Measured.MeasuredCase
import Mathlib.Algebra.GroupWithZero.Nat

/-!
# When a measured case passes

An invocation that goes wrong is noticed by the text it leaves. `Told` says
that it leaves one in Setup or Teardown, `ToldInCall` in a Call iteration; an
iteration that returns after it went wrong is only noticed at the end of its
epoch. `passes_iff_clean` says when this is enough.
-/

namespace Gentest.Measured

open Loops
open Runner

-- ---------------------------------------------------------------------------
-- Invocations
-- ---------------------------------------------------------------------------

def Invocation.ctx (inv : Invocation) : TestContextInfo := inv.ops.foldl ContextOp.apply {}

/-- It returned, recorded no failure and requested no skip. -/
structure Invocation.Clean (inv : Invocation) : Prop where
  failures : inv.ctx.failures = []
  skip : inv.ctx.runtimeSkipRequested = false
  errors : inv.benchErrors = []
  returned : inv.throws = none

/-- A request to skip, a text in the error slot or the text of the first
failure. -/
def Invocation.Noted (inv : Invocation) : Prop :=
  (∃ error ∈ inv.benchErrors, error ≠ "") ∨ inv.ctx.runtimeSkipRequested = true ∨
    firstRecordedFailure inv.ctx ≠ ""

/-- In Setup and Teardown only an assertion can lack a text of its own. -/
def Invocation.Told (inv : Invocation) : Prop :=
  inv.Noted ∨ inv.throws ≠ none ∧ inv.throws ≠ some (.assertion "")

/-- In the Call phase a `gentest::failure` can as well. -/
def Invocation.ToldInCall (inv : Invocation) : Prop :=
  inv.Noted ∨ inv.throws ≠ none ∧ inv.throws ≠ some (.assertion "") ∧ inv.throws ≠ some (.failure "")

theorem Invocation.Clean.not_noted {inv : Invocation} (h : inv.Clean) : ¬ inv.Noted := by
  rintro (⟨error, hmem, -⟩ | hskip | hfirst)
  · rw [h.errors] at hmem
    cases hmem
  · rw [h.skip] at hskip
    cases hskip
  · rw [firstRecordedFailure, h.failures] at hfirst
    exact hfirst rfl

theorem Invocation.Clean.not_told {inv : Invocation} (h : inv.Clean) : ¬ inv.Told := by
  rintro (hnoted | ⟨hthrows, -⟩)
  · exact h.not_noted hnoted
  · exact hthrows h.returned

theorem recordBenchError_eq (error msg : String) :
    recordBenchError error msg = if error = "" then msg else error := by
  unfold recordBenchError
  simp [String.isEmpty_iff]

theorem recordBenchError_empty (error msg : String) :
    recordBenchError error msg = "" ↔ error = "" ∧ msg = "" := by
  rw [recordBenchError_eq]
  by_cases h : error = "" <;> simp [h]

theorem recordBenchErrors_empty (error : String) (msgs : List String) :
    msgs.foldl recordBenchError error = "" ↔ error = "" ∧ ∀ msg ∈ msgs, msg = "" := by
  induction msgs generalizing error with
  | nil => simp
  | cons msg msgs ih =>
    rw [List.foldl_cons, ih, recordBenchError_empty, List.forall_mem_cons, and_assoc]

theorem not_noted_iff (inv : Invocation) :
    ¬ inv.Noted ↔ inv.benchErrors.foldl recordBenchError "" = "" ∧ inv.ctx.runtimeSkipRequested = false ∧
      firstRecordedFailure inv.ctx = "" := by
  rw [recordBenchErrors_empty]
  simp [Invocation.Noted]

theorem runMeasurementPhase_ok (inv : Invocation) : (runMeasurementPhase inv).ok = true ↔ ¬ inv.Told := by
  rw [Invocation.Told, not_or, not_noted_iff]
  unfold runMeasurementPhase invokeCaseOnce
  show _ ↔ (_ ∧ inv.ctx.runtimeSkipRequested = false ∧ firstRecordedFailure inv.ctx = "") ∧ _
  have hctx : inv.ops.foldl ContextOp.apply {} = inv.ctx := rfl
  rw [hctx]
  generalize inv.benchErrors.foldl recordBenchError "" = error
  generalize hreq : inv.ctx.runtimeSkipRequested = requested
  generalize hfirst : firstRecordedFailure inv.ctx = first
  by_cases herror : error = ""
  · cases inv.throws with
    | none => by_cases hempty : first = "" <;> cases requested <;> simp [herror, hempty, hreq, hfirst]
    | some ex =>
      by_cases hempty : first = "" <;> cases requested <;> cases ex <;> simp [herror, hempty, hreq, hfirst]
  · simp [herror]

-- ---------------------------------------------------------------------------
-- Epochs
-- ---------------------------------------------------------------------------

structure Fresh (ctx : TestContextInfo) : Prop where
  failures : ctx.failures = []
  skip : ctx.runtimeSkipRequested = false

theorem foldl_apply_fresh {ctx ctx' : TestContextInfo} (ops : List ContextOp) (hfailures : ctx.failures = ctx'.failures)
    (hskip : ctx.runtimeSkipRequested = ctx'.runtimeSkipRequested) :
    (ops.foldl ContextOp.apply ctx).failures = (ops.foldl ContextOp.apply ctx').failures ∧
      (ops.foldl ContextOp.apply ctx).runtimeSkipRequested = (ops.foldl ContextOp.apply ctx').runtimeSkipRequested := by
  induction ops generalizing ctx ctx' with
  | nil => exact ⟨hfailures, hskip⟩
  | cons op ops ih =>
    rw [List.foldl_cons, List.foldl_cons]
    cases op with
    | recordFailure msg loc => exact ih (by simp [ContextOp.apply, TestContextInfo.recordFailure, hfailures]) hskip
    | log line => exact ih hfailures hskip
    | requestRuntimeSkip reason kind => exact ih hfailures rfl
    | xfail reason => exact ih hfailures hskip

variable {call : Nat → Invocation}

theorem callFn_fresh {e : Epoch} (h : Fresh e.ctx) (i : Nat) :
    (Epoch.callFn call i e).1.ctx.failures = (call e.started).ctx.failures ∧
      (Epoch.callFn call i e).1.ctx.runtimeSkipRequested = (call e.started).ctx.runtimeSkipRequested :=
  foldl_apply_fresh (call e.started).ops h.failures h.skip

theorem epoch_clean (is : List Nat) {e : Epoch} (hfresh : Fresh e.ctx) (hthrown : e.thrown = none)
    (hclean : ∀ k, e.started ≤ k → k < e.started + is.length → (call k).Clean) :
    Fresh (loopUntil (Epoch.callFn call) is e).1.ctx ∧ (loopUntil (Epoch.callFn call) is e).1.thrown = none ∧
      (loopUntil (Epoch.callFn call) is e).1.started = e.started + is.length ∧
      (loopUntil (Epoch.callFn call) is e).1.benchError = e.benchError := by
  induction is generalizing e with
  | nil => exact ⟨hfresh, hthrown, rfl, rfl⟩
  | cons i is ih =>
    have hthis := hclean e.started (Nat.le_refl _) (by simp)
    obtain ⟨hfailures, hskip⟩ := callFn_fresh hfresh i
    have hgo : (Epoch.callFn call i e).2 = false := by simp [Epoch.callFn, hthis.returned]
    have herror : (Epoch.callFn call i e).1.benchError = e.benchError := by simp [Epoch.callFn, hthis.errors]
    unfold loopUntil
    rw [hgo, if_neg Bool.false_ne_true]
    obtain ⟨hfresh', hthrown', hstarted, herror'⟩ := ih (e := (Epoch.callFn call i e).1)
      ⟨hfailures.trans hthis.failures, hskip.trans hthis.skip⟩ hthis.returned fun k hle hlt =>
        hclean k (Nat.le_of_succ_le hle) (by rw [List.length_cons]; simp only [Epoch.callFn] at hlt; omega)
    refine ⟨hfresh', hthrown', hstarted.trans ?_, herror'.trans herror⟩
    simp only [Epoch.callFn, List.length_cons]
    omega

/-- What an epoch is left with when its last call is the first to go wrong. -/
structure EndsAt (call : Nat → Invocation) (k : Nat) (error : String) (e : Epoch) : Prop where
  started : e.started = k + 1
  thrown : e.thrown = (call k).throws
  failures : e.ctx.failures = (call k).ctx.failures
  skip : e.ctx.runtimeSkipRequested = (call k).ctx.runtimeSkipRequested
  error : e.benchError = (call k).benchErrors.foldl recordBenchError error

theorem started_callFn (is : List Nat) (e : Epoch) : e.started ≤ (loopUntil (Epoch.callFn call) is e).1.started :=
  loopUntil_invariant (P := fun e' : Epoch => e.started ≤ e'.started) (fun _ _ _ h => Nat.le_succ_of_le h) (Nat.le_refl _)

theorem started_lt_callFn (call : Nat → Invocation) (i : Nat) (is : List Nat) (e : Epoch) :
    e.started < (loopUntil (Epoch.callFn call) (i :: is) e).1.started := by
  unfold loopUntil
  split
  · exact Nat.lt_succ_self _
  · exact started_callFn is (Epoch.callFn call i e).1

/-- The first call to go wrong ends the epoch if it throws or is the last one;
else there is another. -/
theorem epoch_wrong {k : Nat} (is : List Nat) {e : Epoch} (hfresh : Fresh e.ctx) (hle : e.started ≤ k)
    (hlt : k < e.started + is.length) (hclean : ∀ j, e.started ≤ j → j < k → (call j).Clean) :
    if (call k).throws ≠ none ∨ k + 1 = e.started + is.length then
      EndsAt call k e.benchError (loopUntil (Epoch.callFn call) is e).1
    else k + 1 < (loopUntil (Epoch.callFn call) is e).1.started := by
  induction is generalizing e with
  | nil =>
    rw [List.length_nil] at hlt
    omega
  | cons i is ih =>
    obtain ⟨hfailures, hskip⟩ := callFn_fresh hfresh i
    rcases Nat.eq_or_lt_of_le hle with rfl | hlater
    · have hends : EndsAt call e.started e.benchError (Epoch.callFn call i e).1 := ⟨rfl, rfl, hfailures, hskip, rfl⟩
      unfold loopUntil
      cases hthrows : (call e.started).throws with
      | some ex =>
        rw [if_pos (.inl (by simp)), if_pos (by simp [Epoch.callFn, hthrows])]
        exact hends
      | none =>
        rw [if_neg (show ¬ (Epoch.callFn call i e).2 = true by simp [Epoch.callFn, hthrows])]
        cases is with
        | nil =>
          rw [if_pos (.inr rfl)]
          exact hends
        | cons i' is =>
          rw [if_neg (by simp)]
          exact started_lt_callFn call i' is (Epoch.callFn call i e).1
    · have hthis := hclean e.started (Nat.le_refl _) hlater
      have hlength : e.started + (i :: is).length = (Epoch.callFn call i e).1.started + is.length := by
        simp only [Epoch.callFn, List.length_cons]
        omega
      have herror : (Epoch.callFn call i e).1.benchError = e.benchError := by simp [Epoch.callFn, hthis.errors]
      have hrest := ih (e := (Epoch.callFn call i e).1) ⟨hfailures.trans hthis.failures, hskip.trans hthis.skip⟩ hlater
        (by rw [← hlength]; exact hlt) fun j hj => hclean j (Nat.le_of_succ_le hj)
      unfold loopUntil
      rw [if_neg (show ¬ (Epoch.callFn call i e).2 = true by simp [Epoch.callFn, hthis.returned]), hlength, ← herror]
      exact hrest

/-- A call that returned is noticed at the end of its epoch. -/
def Invocation.Asserts (inv : Invocation) : Prop :=
  inv.throws ≠ none ∨ inv.ctx.runtimeSkipRequested = true ∨ firstRecordedFailure inv.ctx ≠ ""

variable {reason : String} {s : Calls}

theorem runtimeSkipOrDefault_ne (hreason : reason ≠ "") (ctx : TestContextInfo) :
    runtimeSkipOrDefault ctx reason ≠ "" := by
  unfold runtimeSkipOrDefault
  split
  · rename_i h
    simp at h
    exact h.2
  · exact hreason

def Epoch.finalized (reason : String) (e : Epoch) : String × Bool :=
  let error := match e.thrown with
    | some ex => handleThrown reason e.ctx e.benchError ex
    | none => e.benchError
  finalizeCallPhaseFailure reason (assertionFallback e.thrown) e.ctx error e.thrown.isSome

theorem EndsAt.finalized {k : Nat} {e : Epoch} (h : EndsAt call k "" e) (hreason : reason ≠ "") :
    ((e.finalized reason).1 = "" ↔ ¬ (call k).ToldInCall) ∧ ((e.finalized reason).2 = true ↔ (call k).Asserts) := by
  have hfirst : firstRecordedFailure e.ctx = firstRecordedFailure (call k).ctx := by
    rw [firstRecordedFailure, h.failures, firstRecordedFailure]
  have hskipReason := runtimeSkipOrDefault_ne hreason e.ctx
  rw [Invocation.ToldInCall, not_or, not_noted_iff, Invocation.Asserts]
  unfold Epoch.finalized finalizeCallPhaseFailure
  rw [h.skip, hfirst, h.thrown, h.error]
  generalize (call k).benchErrors.foldl recordBenchError "" = error
  generalize (call k).ctx.runtimeSkipRequested = requested
  generalize firstRecordedFailure (call k).ctx = first
  cases (call k).throws with
  | none =>
    by_cases hempty : first = "" <;> cases requested <;>
      simp [assertionFallback, recordBenchError_empty, hempty, hskipReason]
  | some ex =>
    cases ex with
    | assertion message =>
      by_cases hempty : first = "" <;> by_cases hmessage : message = "" <;> cases requested <;>
        simp [assertionFallback, handleThrown, recordBenchError_empty, hempty, hmessage, hskipReason]
    | _ =>
      by_cases hempty : first = "" <;> cases requested <;>
        simp [assertionFallback, handleThrown, recordBenchError_empty, hempty, hskipReason]

-- ---------------------------------------------------------------------------
-- The epochs of a case
-- ---------------------------------------------------------------------------

/-- An epoch to come: the text for a skip without a reason, and its calls. -/
structure EpochPlan where
  reason : String
  iters : Nat
  deriving DecidableEq, Repr

def runPlanned (call : Nat → Invocation) (plan : EpochPlan) : Calls → Calls × Bool :=
  runCallPhaseWithContext call plan.reason plan.iters

def plannedCalls (plans : List EpochPlan) : Nat := (plans.map EpochPlan.iters).sum

/-- Whether a call, counted from the first planned epoch, is the last of its
epoch. -/
def endsEpoch : List EpochPlan → Nat → Bool
  | [], _ => false
  | plan :: plans, k => if k < plan.iters then k + 1 == plan.iters else endsEpoch plans (k - plan.iters)

def plannedEpoch (call : Nat → Invocation) (plan : EpochPlan) (s : Calls) : Epoch :=
  (loopUntil (Epoch.callFn call) (List.range plan.iters) { s with }).1

theorem runPlanned_eq (plan : EpochPlan) (s : Calls) :
    (runPlanned call plan s).1.started = (plannedEpoch call plan s).started ∧
      (runPlanned call plan s).1.benchError = ((plannedEpoch call plan s).finalized plan.reason).1 ∧
      (runPlanned call plan s).2 = ((plannedEpoch call plan s).finalized plan.reason).2 :=
  ⟨rfl, rfl, rfl⟩

theorem finalized_fresh {e : Epoch} (h : Fresh e.ctx) (hthrown : e.thrown = none) (reason : String) :
    e.finalized reason = (e.benchError, false) := by
  simp [Epoch.finalized, finalizeCallPhaseFailure, firstRecordedFailure, assertionFallback, h.failures, h.skip, hthrown]

theorem runPlanned_clean (plan : EpochPlan)
    (hclean : ∀ k, s.started ≤ k → k < s.started + plan.iters → (call k).Clean) :
    (runPlanned call plan s).1.started = s.started + plan.iters ∧
      (runPlanned call plan s).1.benchError = s.benchError ∧ (runPlanned call plan s).2 = false := by
  obtain ⟨hfresh, hthrown, hstarted, herror⟩ := epoch_clean (List.range plan.iters)
    (e := { s with }) ⟨rfl, rfl⟩ rfl (by simpa using hclean)
  rw [List.length_range] at hstarted
  obtain ⟨hs, he, hf⟩ := runPlanned_eq plan s
  rw [plannedEpoch] at hs he hf
  rw [hs, he, hf, finalized_fresh hfresh hthrown]
  exact ⟨hstarted, herror, rfl⟩

theorem runPlanned_wrong {plan : EpochPlan} {k : Nat} (hreason : plan.reason ≠ "") (herror : s.benchError = "")
    (hle : s.started ≤ k) (hlt : k < s.started + plan.iters)
    (hclean : ∀ j, s.started ≤ j → j < k → (call j).Clean) :
    if (call k).throws ≠ none ∨ k + 1 = s.started + plan.iters then
      (runPlanned call plan s).1.started = k + 1 ∧
        ((runPlanned call plan s).1.benchError = "" ↔ ¬ (call k).ToldInCall) ∧
        ((runPlanned call plan s).2 = true ↔ (call k).Asserts)
    else k + 1 < (runPlanned call plan s).1.started := by
  have hwrong := epoch_wrong (List.range plan.iters) (e := { s with }) ⟨rfl, rfl⟩ hle (by simpa using hlt)
    hclean
  obtain ⟨hs, he, hf⟩ := runPlanned_eq plan s
  rw [List.length_range] at hwrong
  rw [hs, he, hf]
  split
  · rename_i hcond
    rw [if_pos hcond, herror] at hwrong
    exact ⟨hwrong.started, hwrong.finalized hreason⟩
  · rename_i hcond
    rw [if_neg hcond] at hwrong
    exact hwrong

theorem started_runPlanned (plan : EpochPlan) (s : Calls) : s.started ≤ (runPlanned call plan s).1.started :=
  started_callFn (List.range plan.iters) { s with }

theorem started_plans (plans : List EpochPlan) (s : Calls) :
    s.started ≤ (loopUntil (runPlanned call) plans s).1.started :=
  loopUntil_invariant (P := fun s' : Calls => s.started ≤ s'.started)
    (fun plan _ s' h => Nat.le_trans h (started_runPlanned plan s')) (Nat.le_refl _)

theorem plans_clean (plans : List EpochPlan) {s : Calls}
    (hclean : ∀ k, s.started ≤ k → k < s.started + plannedCalls plans → (call k).Clean) :
    (loopUntil (runPlanned call) plans s).1.started = s.started + plannedCalls plans ∧
      (loopUntil (runPlanned call) plans s).1.benchError = s.benchError ∧
      (loopUntil (runPlanned call) plans s).2 = false := by
  induction plans generalizing s with
  | nil => exact ⟨rfl, rfl, rfl⟩
  | cons plan plans ih =>
    have hsum : plannedCalls (plan :: plans) = plan.iters + plannedCalls plans := rfl
    obtain ⟨hstarted, herror, hgo⟩ := runPlanned_clean plan (s := s) fun k hle hlt =>
      hclean k hle (by omega)
    obtain ⟨hstarted', herror', hgo'⟩ := ih (s := (runPlanned call plan s).1) fun k hle hlt =>
      hclean k (by omega) (by omega)
    unfold loopUntil
    rw [hgo, if_neg Bool.false_ne_true]
    exact ⟨by omega, herror'.trans herror, hgo'⟩

theorem started_lt_plans (call : Nat → Invocation) {plans : List EpochPlan} (hplanned : 0 < plannedCalls plans) (s : Calls) :
    s.started < (loopUntil (runPlanned call) plans s).1.started := by
  induction plans generalizing s with
  | nil => cases hplanned
  | cons plan plans ih =>
    have hsum : plannedCalls (plan :: plans) = plan.iters + plannedCalls plans := rfl
    cases hiters : plan.iters with
    | zero =>
      obtain ⟨hstarted, -, hgo⟩ := runPlanned_clean plan (s := s) fun k hle hlt => by omega
      unfold loopUntil
      rw [hgo, if_neg Bool.false_ne_true]
      have := ih (by omega) (runPlanned call plan s).1
      omega
    | succ n =>
      have hthis : s.started < (runPlanned call plan s).1.started := by
        have hlt := started_lt_callFn call 0 ((List.range n).map Nat.succ) { s with }
        rw [← List.range_succ_eq_map, ← hiters] at hlt
        exact hlt
      unfold loopUntil
      split
      · exact hthis
      · exact Nat.lt_of_lt_of_le hthis (started_plans plans _)

/-- The first call to go wrong stops the case if it throws, if the end of its
epoch notices it, or if it is the last one. -/
def StopsRun (call : Nat → Invocation) (plans : List EpochPlan) (first k : Nat) : Prop :=
  (call k).throws ≠ none ∨ k + 1 = first + plannedCalls plans ∨ endsEpoch plans (k - first) = true ∧ (call k).Asserts

theorem stopsRun_later {plan : EpochPlan} {plans : List EpochPlan} {first k : Nat} (h : first + plan.iters ≤ k) :
    StopsRun call (plan :: plans) first k ↔ StopsRun call plans (first + plan.iters) k := by
  have hsum : first + plannedCalls (plan :: plans) = first + plan.iters + plannedCalls plans := (Nat.add_assoc ..).symm
  have hends : endsEpoch (plan :: plans) (k - first) = endsEpoch plans (k - (first + plan.iters)) := by
    rw [endsEpoch, if_neg (by omega), Nat.sub_sub]
  rw [StopsRun, StopsRun, hsum, hends]

theorem plans_wrong {plans : List EpochPlan} {k : Nat} (hreason : ∀ plan ∈ plans, plan.reason ≠ "")
    (herror : s.benchError = "") (hle : s.started ≤ k) (hlt : k < s.started + plannedCalls plans)
    (hclean : ∀ j, s.started ≤ j → j < k → (call j).Clean) :
    (StopsRun call plans s.started k → (loopUntil (runPlanned call) plans s).1.started = k + 1 ∧
        ((loopUntil (runPlanned call) plans s).1.benchError = "" ↔ ¬ (call k).ToldInCall)) ∧
      (¬ StopsRun call plans s.started k → k + 1 < (loopUntil (runPlanned call) plans s).1.started) := by
  induction plans generalizing s with
  | nil =>
    simp only [plannedCalls, List.map_nil, List.sum_nil] at hlt
    omega
  | cons plan plans ih =>
    have hsum : plannedCalls (plan :: plans) = plan.iters + plannedCalls plans := rfl
    unfold loopUntil
    by_cases hhere : k < s.started + plan.iters
    · have hwrong := runPlanned_wrong (hreason plan (List.mem_cons_self ..)) herror hle hhere hclean
      have hends : endsEpoch (plan :: plans) (k - s.started) = (k - s.started + 1 == plan.iters) := by
        rw [endsEpoch, if_pos (by omega)]
      by_cases hend : (call k).throws ≠ none ∨ k + 1 = s.started + plan.iters
      · rw [if_pos hend] at hwrong
        obtain ⟨hstarted, htold, hasserts⟩ := hwrong
        by_cases hassert : (call k).Asserts
        · have hstops : StopsRun call (plan :: plans) s.started k := by
            refine hend.imp id fun hlast => .inr ⟨?_, hassert⟩
            rw [hends, beq_iff_eq]
            omega
          rw [if_pos (hasserts.mpr hassert)]
          exact ⟨fun _ => ⟨hstarted, htold⟩, fun hnot => absurd hstops hnot⟩
        · -- It returned and went unnoticed: the case goes on if any call is left.
          have hreturned : (call k).throws = none := by
            by_contra hthrows
            exact hassert (.inl hthrows)
          have hlast := hend.resolve_left (not_not.mpr hreturned)
          have hstops : StopsRun call (plan :: plans) s.started k ↔ plannedCalls plans = 0 := by
            simp only [StopsRun, hreturned, hassert, and_false, or_false, ne_eq, not_true_eq_false, false_or]
            omega
          rw [if_neg (mt hasserts.mp hassert), hstops]
          refine ⟨fun hzero => ?_, fun hmore => ?_⟩
          · obtain ⟨hstarted', herror', -⟩ := plans_clean plans
              (s := (runPlanned call plan s).1) fun j hj hlt => by omega
            rw [herror', hstarted', hzero, hstarted]
            exact ⟨rfl, htold⟩
          · rw [← hstarted]
            exact started_lt_plans call (Nat.pos_of_ne_zero hmore) _
      · rw [if_neg hend] at hwrong
        obtain ⟨hreturned, hnot⟩ := not_or.mp hend
        have hgoes : ¬ StopsRun call (plan :: plans) s.started k := by
          rintro (hthrows | hlast | ⟨hepoch, -⟩)
          · exact hreturned hthrows
          · omega
          · rw [hends, beq_iff_eq] at hepoch
            omega
        refine ⟨fun hstops => absurd hstops hgoes, fun _ => ?_⟩
        split
        · exact hwrong
        · exact Nat.lt_of_lt_of_le hwrong (started_plans plans _)
    · obtain ⟨hstarted, herror', hgo⟩ := runPlanned_clean plan (s := s) fun j hj hlt =>
        hclean j hj (by omega)
      have hrest := ih (s := (runPlanned call plan s).1) (fun p hp => hreason p (List.mem_cons_of_mem _ hp))
        (herror'.trans herror) (by omega) (by omega) fun j hj hlt => hclean j (by omega) hlt
      rw [hgo, if_neg Bool.false_ne_true, stopsRun_later (by omega), ← hstarted]
      exact hrest

-- ---------------------------------------------------------------------------
-- The epochs a case plans
-- ---------------------------------------------------------------------------

def benchSkipReason : String := "skip requested during benchmark call phase"

def calibrationPlans (timing : Timing) : Nat → Nat → List EpochPlan
  | 0, iterations => [⟨benchSkipReason, iterations⟩]
  | left + 1, iterations =>
    ⟨benchSkipReason, iterations⟩ ::
      if timing.longEnough iterations then [] else calibrationPlans timing left (iterations * 2)

def calibratedIterations (timing : Timing) : Nat → Nat → Nat
  | 0, iterations => if timing.longEnough iterations then iterations else iterations * 2
  | left + 1, iterations =>
    if timing.longEnough iterations then iterations else calibratedIterations timing left (iterations * 2)

def measuredPlan (timing : Timing) (iters : Nat) : Kind → EpochPlan
  | .bench => ⟨benchSkipReason, iters⟩
  | .jitter =>
    ⟨"skip requested during jitter call phase", if timing.useBatch then batchCalls iters else iters⟩

def epochPlans (timing : Timing) (kind : Kind) : List EpochPlan :=
  let iters := calibratedIterations timing 30 1
  calibrationPlans timing 30 1 ++ ((List.range timing.warmupEpochs).map fun _ => ⟨benchSkipReason, iters⟩) ++
    (List.range timing.measureEpochs).map fun _ => measuredPlan timing iters kind

theorem calibrateFrom_eq (timing : Timing) (left iterations : Nat) (s : Calls) :
    (calibrateFrom call timing left iterations s).calls =
        (loopUntil (runPlanned call) (calibrationPlans timing left iterations) s).1 ∧
      (calibrateFrom call timing left iterations s).hadAssert =
        (loopUntil (runPlanned call) (calibrationPlans timing left iterations) s).2 ∧
      ((calibrateFrom call timing left iterations s).hadAssert = false →
        (calibrateFrom call timing left iterations s).iterations = calibratedIterations timing left iterations) := by
  have hepoch : runEpochCalls call iterations = runPlanned call ⟨benchSkipReason, iterations⟩ := rfl
  induction left generalizing iterations s with
  | zero =>
    simp only [calibrateFrom, calibrationPlans, calibratedIterations, loopUntil, hepoch]
    cases hstop : (runPlanned call ⟨benchSkipReason, iterations⟩ s).2 with
    | true => exact ⟨rfl, hstop.symm, nofun⟩
    | false =>
      cases timing.longEnough iterations with
      | true => exact ⟨rfl, rfl, fun _ => rfl⟩
      | false => exact ⟨rfl, rfl, fun _ => rfl⟩
  | succ left ih =>
    simp only [calibrateFrom, calibrationPlans, calibratedIterations, loopUntil, hepoch]
    cases hstop : (runPlanned call ⟨benchSkipReason, iterations⟩ s).2 with
    | true => exact ⟨rfl, hstop.symm, nofun⟩
    | false =>
      cases timing.longEnough iterations with
      | true => exact ⟨rfl, rfl, fun _ => rfl⟩
      | false => exact ih (iterations * 2) _ rfl

theorem runCall_eq (timing : Timing) (kind : Kind) (s : Calls) :
    runCall call timing kind s = (loopUntil (runPlanned call) (epochPlans timing kind) s).1 := by
  obtain ⟨hcalls, hassert, hiters⟩ := calibrateFrom_eq timing 30 1 s
  have hmeasured : measuredEpoch call timing (calibratedIterations timing 30 1) kind =
      runPlanned call (measuredPlan timing (calibratedIterations timing 30 1) kind) := by
    cases kind <;> rfl
  unfold runCall calibrateEpochIterations epochPlans
  simp only [loopUntil_append, loopUntil_map]
  rw [← hcalls, ← hassert]
  cases hgo : (calibrateFrom call timing 30 1 s).hadAssert with
  | true => simp [← hcalls, ← hassert, hgo]
  | false =>
    have hepoch : ∀ n, runEpochCalls call n = runPlanned call ⟨benchSkipReason, n⟩ := fun _ => rfl
    simp only [hiters hgo, hmeasured, hepoch, Bool.false_eq_true, if_false]
    split <;> rfl

theorem epochPlans_reason (timing : Timing) (kind : Kind) : ∀ plan ∈ epochPlans timing kind, plan.reason ≠ "" := by
  have hcalibration : ∀ left iterations, ∀ plan ∈ calibrationPlans timing left iterations, plan.reason ≠ "" := by
    intro left
    induction left with
    | zero => simp [calibrationPlans, benchSkipReason]
    | succ left ih =>
      intro iterations
      rw [calibrationPlans, List.forall_mem_cons]
      refine ⟨by simp [benchSkipReason], ?_⟩
      split
      · exact nofun
      · exact ih _
  have hmeasured : (measuredPlan timing (calibratedIterations timing 30 1) kind).reason ≠ "" := by
    cases kind <;> simp [measuredPlan, benchSkipReason]
  simp only [epochPlans, List.forall_mem_append, List.forall_mem_map]
  exact ⟨⟨hcalibration 30 1, fun _ _ => by simp [benchSkipReason]⟩, fun _ _ => hmeasured⟩

theorem plannedCalls_pos (timing : Timing) (kind : Kind) : 0 < plannedCalls (epochPlans timing kind) := by
  have hhead : ∃ plans, epochPlans timing kind = ⟨benchSkipReason, 1⟩ :: plans := ⟨_, rfl⟩
  obtain ⟨plans, hplans⟩ := hhead
  rw [hplans, plannedCalls, List.map_cons, List.sum_cons]
  exact Nat.add_pos_left Nat.one_pos _

-- ---------------------------------------------------------------------------
-- The case
-- ---------------------------------------------------------------------------

/-- The case passes iff every invocation was clean, a Setup that was not keeps
the Call phase from being entered, Teardown is invoked once when the fixture
was acquired, and no iteration follows one that was not clean. -/
structure PassesIffClean (acquired : Option String) (fn : Fn) (out : CaseRun) : Prop where
  passes : out.passed = true ↔
    acquired = none ∧ fn.setup.Clean ∧ (∀ k < out.calls, (fn.call k).Clean) ∧ fn.teardown.Clean
  setup : ¬ fn.setup.Clean → out.calls = 0
  teardown : acquired = none → out.invoked.count .teardown = 1
  stops : ∀ k < out.calls, ¬ (fn.call k).Clean → out.calls = k + 1

variable {fn : Fn} {test : Case} {kind : Kind} {timing : Timing}

theorem runMeasuredCase_told (h : fn.setup.Told) :
    (runMeasuredCase test kind timing none fn).passed = false ∧ (runMeasuredCase test kind timing none fn).calls = 0 ∧
      (runMeasuredCase test kind timing none fn).invoked.count .teardown = 1 := by
  have hok : (runMeasurementPhase fn.setup).ok = false := by
    rw [← Bool.not_eq_true, runMeasurementPhase_ok]
    exact not_not.mpr h
  simp [runMeasuredCase, hok, CaseRun.calls]

theorem runMeasuredCase_entered (test : Case) (kind : Kind) (timing : Timing) (h : ¬ fn.setup.Told) :
    ∃ s : Calls, s.started = 0 ∧ s.benchError = "" ∧
      (runMeasuredCase test kind timing none fn).calls =
        (loopUntil (runPlanned fn.call) (epochPlans timing kind) s).1.started ∧
      (runMeasuredCase test kind timing none fn).invoked.count .teardown = 1 ∧
      ((runMeasuredCase test kind timing none fn).passed = true ↔
        (loopUntil (runPlanned fn.call) (epochPlans timing kind) s).1.benchError = "" ∧ ¬ fn.teardown.Told) := by
  refine ⟨{ failure := captureFirstFailureLocation (invokeCaseOnce fn.setup).ctxinfo {} }, rfl, rfl, ?_⟩
  have hok : (runMeasurementPhase fn.setup).ok = true := (runMeasurementPhase_ok _).mpr h
  rw [← runMeasurementPhase_ok, ← runCall_eq]
  simp only [runMeasuredCase, hok, Bool.not_true, Bool.false_eq_true, if_false]
  generalize runCall fn.call timing kind _ = calls
  cases (runMeasurementPhase fn.teardown).ok with
  | false => simp [CaseRun.calls, List.count_replicate]
  | true => by_cases herror : calls.benchError = "" <;> simp [CaseRun.calls, List.count_replicate, herror]

structure FirstWrong (call : Nat → Invocation) (n k : Nat) : Prop where
  planned : k < n
  before : ∀ j < k, (call j).Clean
  wrong : ¬ (call k).Clean

theorem clean_or_firstWrong (call : Nat → Invocation) (n : Nat) :
    (∀ k < n, (call k).Clean) ∨ ∃ k, FirstWrong call n k := by
  induction n with
  | zero => exact .inl nofun
  | succ n ih =>
    rcases ih with hclean | ⟨k, hk⟩
    · by_cases hlast : (call n).Clean
      · exact .inl (Nat.forall_lt_succ_right.mpr ⟨hclean, hlast⟩)
      · exact .inr ⟨n, Nat.lt_succ_self n, hclean, hlast⟩
    · exact .inr ⟨k, Nat.lt_succ_of_lt hk.planned, hk.before, hk.wrong⟩

theorem FirstWrong.unique {call : Nat → Invocation} {n k k' : Nat} (h : FirstWrong call n k)
    (h' : FirstWrong call n k') : k' = k := by
  rcases Nat.lt_trichotomy k' k with hlt | heq | hgt
  · exact absurd (h.before k' hlt) h'.wrong
  · exact heq
  · exact absurd (h'.before k hgt) h.wrong

/-- What goes wrong first leaves a text, and a call that goes wrong stops the
calls. -/
def Noticed (fn : Fn) (plans : List EpochPlan) : Prop :=
  fn.setup.Told ∨
    fn.setup.Clean ∧
      ((∀ k < plannedCalls plans, (fn.call k).Clean) ∧ (fn.teardown.Clean ∨ fn.teardown.Told) ∨
        ∃ k, FirstWrong fn.call (plannedCalls plans) k ∧ StopsRun fn.call plans 0 k ∧
          ((fn.call k).ToldInCall ∨ fn.teardown.Told))

theorem passes_clean_calls (fn : Fn) (test : Case) (kind : Kind) (timing : Timing) (hsetup : fn.setup.Clean)
    (hclean : ∀ k < plannedCalls (epochPlans timing kind), (fn.call k).Clean) :
    PassesIffClean none fn (runMeasuredCase test kind timing none fn) ↔ fn.teardown.Clean ∨ fn.teardown.Told := by
  obtain ⟨s, hzero, herror, hcalls, hteardown, hpassed⟩ := runMeasuredCase_entered test kind timing
    hsetup.not_told
  obtain ⟨hstarted, herror', -⟩ := plans_clean (epochPlans timing kind) (s := s)
    fun k _ hk => hclean k (by omega)
  have hall : ∀ k < (runMeasuredCase test kind timing none fn).calls, (fn.call k).Clean := by
    intro k hk
    exact hclean k (by omega)
  rw [herror', herror] at hpassed
  simp only [true_and] at hpassed
  refine ⟨fun h => ?_, fun h => ⟨?_, fun hnot => absurd hsetup hnot, fun _ => hteardown,
    fun k hk hnot => absurd (hall k hk) hnot⟩⟩
  · by_cases htold : fn.teardown.Told
    · exact .inr htold
    · exact .inl (h.passes.mp (hpassed.mpr htold)).2.2.2
  · rw [hpassed]
    refine ⟨fun htold => ⟨rfl, hsetup, hall, h.resolve_right htold⟩, fun hclean => hclean.2.2.2.not_told⟩

theorem passes_wrong_call {k : Nat} (hsetup : fn.setup.Clean)
    (hwrong : FirstWrong fn.call (plannedCalls (epochPlans timing kind)) k) :
    PassesIffClean none fn (runMeasuredCase test kind timing none fn) ↔
      StopsRun fn.call (epochPlans timing kind) 0 k ∧ ((fn.call k).ToldInCall ∨ fn.teardown.Told) := by
  obtain ⟨s, hzero, herror, hcalls, hteardown, hpassed⟩ := runMeasuredCase_entered test kind timing
    hsetup.not_told
  have hle : s.started ≤ k := by omega
  have hlt : k < s.started + plannedCalls (epochPlans timing kind) := by
    rw [hzero, Nat.zero_add]
    exact hwrong.planned
  obtain ⟨hstops, hgoes⟩ := plans_wrong (epochPlans_reason timing kind) herror hle hlt
    fun j _ hj => hwrong.before j hj
  rw [hzero, ← hcalls] at hstops hgoes
  by_cases hstop : StopsRun fn.call (epochPlans timing kind) 0 k
  · obtain ⟨hstarted, htold⟩ := hstops hstop
    rw [htold] at hpassed
    have hunclean : ¬ ∀ j < (runMeasuredCase test kind timing none fn).calls, (fn.call j).Clean :=
      fun hall => hwrong.wrong (hall k (by omega))
    simp only [hstop, true_and]
    refine ⟨fun h => ?_, fun h => ⟨?_, fun hnot => absurd hsetup hnot, fun _ => hteardown, fun j hj hnot => ?_⟩⟩
    · by_contra hnone
      exact hunclean (h.passes.mp (hpassed.mpr (not_or.mp hnone))).2.2.1
    · rw [hpassed]
      exact ⟨fun hnone => absurd h (not_or.mpr hnone), fun hclean => absurd hclean.2.2.1 hunclean⟩
    · rcases Nat.lt_or_ge j k with hlt | hge
      · exact absurd (hwrong.before j hlt) hnot
      · omega
  · have hmore := hgoes hstop
    refine ⟨fun h => ?_, fun h => absurd h.1 hstop⟩
    have hlast := h.stops k (by omega) hwrong.wrong
    omega

/-- A measured case passes exactly when nothing went wrong, and stops as it
should, iff its fixture was not acquired or what goes wrong is noticed. -/
theorem passes_iff_clean (test : Case) (kind : Kind) (timing : Timing) (acquired : Option String) (fn : Fn) :
    PassesIffClean acquired fn (runMeasuredCase test kind timing acquired fn) ↔
      acquired ≠ none ∨ Noticed fn (epochPlans timing kind) := by
  cases acquired with
  | some reason =>
    refine ⟨fun _ => .inl (Option.some_ne_none reason), fun _ => ⟨⟨fun h => (by cases h), fun h => (by cases h.1)⟩,
      fun _ => rfl, fun h => (by cases h), fun _ h => (by cases h)⟩⟩
  | none =>
    simp only [ne_eq, not_true_eq_false, false_or, Noticed]
    by_cases htold : fn.setup.Told
    · obtain ⟨hpassed, hcalls, hteardown⟩ := runMeasuredCase_told htold
      simp only [htold, true_or, iff_true]
      refine ⟨?_, fun _ => hcalls, fun _ => hteardown, fun k hk => by omega⟩
      rw [hpassed]
      exact ⟨fun hfalse => (by cases hfalse), fun h => absurd htold h.2.1.not_told⟩
    · by_cases hclean : fn.setup.Clean
      · simp only [htold, hclean, false_or, true_and]
        rcases clean_or_firstWrong fn.call (plannedCalls (epochPlans timing kind)) with hcalls | ⟨k, hk⟩
        · rw [passes_clean_calls _ _ _ _ hclean hcalls]
          refine ⟨fun h => .inl ⟨hcalls, h⟩, ?_⟩
          rintro (⟨-, h⟩ | ⟨k, hk, -⟩)
          · exact h
          · exact absurd (hcalls k hk.planned) hk.wrong
        · rw [passes_wrong_call hclean hk]
          refine ⟨fun h => .inr ⟨k, hk, h⟩, ?_⟩
          rintro (⟨hcalls, -⟩ | ⟨k', hk', h⟩)
          · exact absurd (hcalls k hk.planned) hk.wrong
          · rw [hk.unique hk'] at h
            exact h
      · -- A silent Setup: the Call phase is entered all the same.
        obtain ⟨s, hzero, -, hcalls, -, -⟩ := runMeasuredCase_entered test kind timing htold
        have hentered := started_lt_plans fn.call (plannedCalls_pos timing kind) s
        simp only [htold, hclean, false_or, false_and, iff_false]
        intro h
        have hnone := h.setup hclean
        omega

/-- A benchmark that calls `gentest::fail("")`. -/
def failsWithoutText : Fn := { call := fun _ => { throws := some (.failure "") } }

/-- It passes. -/
theorem failure_without_text_passes :
    ¬ PassesIffClean none failsWithoutText (runMeasuredCase { name := "bench" } .bench {} none failsWithoutText) := by
  intro h
  have hrun : (runMeasuredCase { name := "bench" } .bench {} none failsWithoutText).passed = true ∧
      (runMeasuredCase { name := "bench" } .bench {} none failsWithoutText).calls = 1 := by
    decide +kernel
  obtain ⟨hpassed, hcalls⟩ := hrun
  have hreturned := ((h.passes.mp hpassed).2.2.1 0 (by omega)).returned
  cases hreturned

end Gentest.Measured
