import Gentest.Lib.WhileLoops
import Gentest.Measured.PassIffClean
import Mathlib.Algebra.Group.Nat.Defs
import Mathlib.Logic.Relation

/-!
# What the calibration reports

`calibrate_epoch_iterations` runs epochs of 1, 2, 4, ... calls until one takes
`min_epoch_time_s` or fails. The last epoch it may run has 2^30 calls. The
number is doubled before that limit is looked at, so the loop leaves with twice
the calls of the epoch it timed when even that one was too short.
-/

namespace Gentest.Measured

open Loops WhileLoops Runner

/-- What the clock shows for an epoch of so many calls, started in a state of
the Call phase, and whether a duration is at least `min_epoch_time_s`. -/
structure EpochClock (T : Type*) where
  elapsed : Calls → Nat → T
  atLeastMin : T → Bool

/-- A `CalibratedEpoch` and the state the calls have left. -/
structure Calibration (T : Type*) where
  iterations : Nat
  completed : Nat
  elapsedS : T
  hadAssert : Bool
  calls : Calls

-- ---------------------------------------------------------------------------
-- The calls an epoch completes
-- ---------------------------------------------------------------------------

variable (call : Nat → Invocation)

/-- `iterations_done` is written after the call has returned. -/
def countedCall (i : Nat) (s : Epoch × Nat) : (Epoch × Nat) × Bool :=
  let out := Epoch.callFn call i s.1
  ((out.1, if out.2 then s.2 else i + 1), out.2)

def iterationsDone (iters : Nat) (s : Calls) : Nat :=
  (loopUntil (countedCall call) (List.range iters) ({ s with }, 0)).1.2

theorem countedCall_simulates (is : List Nat) (e : Epoch) (n : Nat) :
    (loopUntil (countedCall call) is (e, n)).1.1 = (loopUntil (Epoch.callFn call) is e).1 ∧
      (loopUntil (countedCall call) is (e, n)).2 = (loopUntil (Epoch.callFn call) is e).2 := by
  have hbody : ∀ i (s : Epoch × Nat) e, s.1 = e → (countedCall call i s).1.1 = (Epoch.callFn call i e).1 ∧
      (countedCall call i s).2 = (Epoch.callFn call i e).2 ∧
      ((countedCall call i s).2 = false → (countedCall call i s).1.1 = (Epoch.callFn call i e).1) := by
    rintro i s e rfl
    exact ⟨rfl, rfl, fun _ => rfl⟩
  obtain ⟨hepoch, hstop, -⟩ := @loopUntil_simulates (Epoch × Nat) Nat (countedCall call) is (e, n) Epoch
    (Epoch.callFn call) (fun s e => s.1 = e) (fun s e => s.1 = e) e (fun _ _ h => h) hbody rfl
  exact ⟨hepoch, hstop⟩

theorem countedCall_all (iters : Nat) (e : Epoch)
    (h : (loopUntil (countedCall call) (List.range iters) (e, 0)).2 = false) :
    (loopUntil (countedCall call) (List.range iters) (e, 0)).1.2 = iters := by
  cases iters with
  | zero => rfl
  | succ n =>
    rw [List.range_succ, loopUntil_append] at h ⊢
    split at h
    · rename_i hstop
      rw [hstop] at h
      cases h
    · rename_i hgo
      rw [if_neg hgo]
      simp only [loopUntil] at h ⊢
      split at h
      · rename_i hstop
        rw [hstop] at h
        cases h
      · rename_i hgo'
        rw [if_neg hgo']
        have hreturned : (Epoch.callFn call n (loopUntil (countedCall call) (List.range n) (e, 0)).1.1).2 = false := by
          simpa [countedCall] using hgo'
        simp [countedCall, hreturned]

theorem thrown_of_stopped (is : List Nat) (e : Epoch) (h : (loopUntil (Epoch.callFn call) is e).2 = true) :
    (loopUntil (Epoch.callFn call) is e).1.thrown.isSome = true :=
  loopUntil_stopped (Q := fun e : Epoch => e.thrown.isSome = true) (fun _ _ hstop => hstop) h

theorem iterationsDone_of_no_assert {iters : Nat} {s : Calls} (h : (runEpochCalls call iters s).2 = false) :
    iterationsDone call iters s = iters := by
  obtain ⟨-, hstop⟩ := countedCall_simulates call (List.range iters) { s with } 0
  refine countedCall_all call iters _ (hstop.trans ?_)
  by_contra hstopped
  have hthrown := thrown_of_stopped call (List.range iters) { s with } (by simpa using hstopped)
  have hassert : (runEpochCalls call iters s).2 = true := by
    simp only [runEpochCalls, runCallPhaseWithContext, finalizeCallPhaseFailure, hthrown]
    repeat' split
    all_goals rfl
  rw [h] at hassert
  cases hassert

-- ---------------------------------------------------------------------------
-- The loop
-- ---------------------------------------------------------------------------

variable {T : Type*} (clock : EpochClock T)

def runEpoch (s : Calibration T) : Calibration T :=
  let out := runEpochCalls call s.iterations s.calls
  { iterations := s.iterations
    completed := iterationsDone call s.iterations s.calls
    elapsedS := clock.elapsed s.calls s.iterations
    hadAssert := out.2
    calls := out.1 }

/-- One turn of `calibrate_epoch_iterations`. -/
def calibrationTurn (s : Calibration T) : Step (Calibration T) (Calibration T) :=
  let c := runEpoch call clock s
  if c.hadAssert || clock.atLeastMin c.elapsedS then .done c
  else
    let doubled := { c with iterations := c.iterations * 2 % 2 ^ 64 }
    if doubled.iterations = 0 ∨ 2 ^ 30 < doubled.iterations then .done doubled else .next doubled

def calibrationStart (zero : T) (s : Calls) : Calibration T :=
  { iterations := 1, completed := 0, elapsedS := zero, hadAssert := false, calls := s }

/-- The part of `BenchResult` the calibration fills in, and the iterations of
the epochs that follow it. -/
structure BenchCalibration (T : Type*) where
  calibrationTimeS : T
  calibrationIters : Nat
  iters : Nat

def runBenchCalibration (c : Calibration T) : BenchCalibration T :=
  { calibrationTimeS := c.elapsedS, calibrationIters := c.iterations, iters := c.iterations }

/-- A calibration without an assertion returns the size, the completed calls and
the time of the last epoch it ran, and `run_bench` reports and goes on with
these. -/
def ReportsLastEpoch (start c : Calibration T) : Prop :=
  c.hadAssert = false →
    c.iterations = c.completed ∧
      ∃ last, Relation.ReflTransGen (fun s s' => calibrationTurn call clock s = .next s') start last ∧
        calibrationTurn call clock last = .done c ∧
        c.iterations = last.iterations ∧ c.elapsedS = clock.elapsed last.calls last.iterations ∧
        (runBenchCalibration c).calibrationIters = last.iterations ∧
        (runBenchCalibration c).calibrationTimeS = clock.elapsed last.calls last.iterations ∧
        (runBenchCalibration c).iters = last.iterations

-- ---------------------------------------------------------------------------
-- The turns
-- ---------------------------------------------------------------------------

def turnCalls (s : Calls) : Nat → Calls
  | 0 => s
  | k + 1 => (runEpochCalls call (2 ^ k) (turnCalls s k)).1

/-- The epoch of 2^k calls reports an assertion or takes `min_epoch_time_s`. -/
def Suffices (s : Calls) (k : Nat) : Prop :=
  (runEpochCalls call (2 ^ k) (turnCalls call s k)).2 = true ∨
    clock.atLeastMin (clock.elapsed (turnCalls call s k) (2 ^ k)) = true

/-- A state the loop is in before its epoch of 2^k calls. -/
structure AtTurn (start : Calibration T) (k : Nat) (s : Calibration T) : Prop where
  le : k ≤ 30
  iterations : s.iterations = 2 ^ k
  calls : s.calls = turnCalls call start.calls k
  reached : Relation.ReflTransGen (fun s s' => calibrationTurn call clock s = .next s') start s
  before : ∀ j, j < k → ¬ Suffices call clock start.calls j

variable {call clock} {start s s' c : Calibration T} {k : Nat}

theorem atTurn_start (h : start.iterations = 1) : AtTurn call clock start 0 start :=
  { le := Nat.zero_le 30
    iterations := by simpa using h
    calls := rfl
    reached := .refl
    before := fun _ hj => absurd hj (Nat.not_lt_zero _) }

theorem AtTurn.suffices_iff (h : AtTurn call clock start k s) :
    ((runEpoch call clock s).hadAssert || clock.atLeastMin (runEpoch call clock s).elapsedS) = true ↔
      Suffices call clock start.calls k := by
  simp [runEpoch, Suffices, h.iterations, h.calls]

theorem AtTurn.doubled (h : AtTurn call clock start k s) :
    (runEpoch call clock s).iterations * 2 % 2 ^ 64 = 2 ^ (k + 1) := by
  have hlt : 2 ^ (k + 1) < 2 ^ 64 := Nat.pow_lt_pow_right (by decide) (by have := h.le; omega)
  rw [runEpoch, h.iterations, ← Nat.pow_succ, Nat.mod_eq_of_lt hlt]

theorem AtTurn.goes (h : AtTurn call clock start k s) (hstep : calibrationTurn call clock s = .next s') :
    ¬ Suffices call clock start.calls k ∧ k < 30 ∧
      s' = { runEpoch call clock s with iterations := 2 ^ (k + 1) } := by
  unfold calibrationTurn at hstep
  simp only [h.doubled] at hstep
  split at hstep
  · cases hstep
  · rename_i hgo
    split at hstep
    · cases hstep
    · rename_i hcap
      refine ⟨fun hs => hgo (h.suffices_iff.mpr hs), ?_, (Step.next.inj hstep).symm⟩
      have hle : 2 ^ (k + 1) ≤ 2 ^ 30 := by omega
      have := (Nat.pow_le_pow_iff_right (by decide)).mp hle
      omega

theorem AtTurn.next (h : AtTurn call clock start k s) (hstep : calibrationTurn call clock s = .next s') :
    AtTurn call clock start (k + 1) s' := by
  obtain ⟨hgo, hlt, hs'⟩ := h.goes hstep
  refine { le := hlt, iterations := by rw [hs'], calls := ?_, reached := h.reached.tail hstep, before := ?_ }
  · rw [hs', turnCalls, ← h.calls, ← h.iterations]
    rfl
  · intro j hj
    rcases Nat.lt_succ_iff_lt_or_eq.mp hj with hj | rfl
    · exact h.before j hj
    · exact hgo

/-- The loop returns either because its epoch sufficed or, with another number
of calls, after the epoch of 2^30 calls. -/
theorem AtTurn.returns (h : AtTurn call clock start k s) (hstep : calibrationTurn call clock s = .done c) :
    (Suffices call clock start.calls k ∧ c = runEpoch call clock s) ∨
      (¬ Suffices call clock start.calls k ∧ k = 30 ∧
        c = { runEpoch call clock s with iterations := 2 ^ (k + 1) }) := by
  unfold calibrationTurn at hstep
  simp only [h.doubled] at hstep
  split at hstep
  · rename_i hstop
    exact .inl ⟨h.suffices_iff.mp hstop, (Step.done.inj hstep).symm⟩
  · rename_i hgo
    split at hstep
    · rename_i hcap
      have hpos : 0 < 2 ^ (k + 1) := Nat.two_pow_pos _
      have hlt : 30 < k + 1 := (Nat.pow_lt_pow_iff_right (a := 2) (by decide)).mp (by omega)
      obtain rfl : k = 30 := by
        have := h.le
        omega
      exact .inr ⟨fun hs => hgo (h.suffices_iff.mpr hs), rfl, (Step.done.inj hstep).symm⟩
    · cases hstep

theorem AtTurn.descends (h : AtTurn call clock start k s) (hstep : calibrationTurn call clock s = .next s') :
    2 ^ 30 - s'.iterations < 2 ^ 30 - s.iterations := by
  obtain ⟨-, hlt, -⟩ := h.goes hstep
  have hpow : 2 ^ k < 2 ^ (k + 1) := Nat.pow_lt_pow_right (by decide) (Nat.lt_succ_self k)
  have hle : 2 ^ (k + 1) ≤ 2 ^ 30 := Nat.pow_le_pow_right (by decide) hlt
  rw [h.iterations, (h.next hstep).iterations]
  omega

theorem calibration_returns (call : Nat → Invocation) (clock : EpochClock T) (h : start.iterations = 1) :
    ∃ c, Ends (calibrationTurn call clock) start c ∧
      ∃ k s, AtTurn call clock start k s ∧ calibrationTurn call clock s = .done c := by
  have hstart : ∃ k, AtTurn call clock start k start := ⟨0, atTurn_start h⟩
  have hturn : ∀ s s', (∃ k, AtTurn call clock start k s) → calibrationTurn call clock s = .next s' →
      (∃ k, AtTurn call clock start k s') ∧ 2 ^ 30 - s'.iterations < 2 ^ 30 - s.iterations := by
    rintro s s' ⟨k, hk⟩ hstep
    exact ⟨⟨k + 1, hk.next hstep⟩, hk.descends hstep⟩
  obtain ⟨c, hc⟩ := ends_of_descends (measure fun s : Calibration T => 2 ^ 30 - s.iterations).wf hturn hstart
  refine ⟨c, hc, hc.post (I := fun s => ∃ k, AtTurn call clock start k s)
    (Q := fun c => ∃ k s, AtTurn call clock start k s ∧ calibrationTurn call clock s = .done c) ?_ ?_ hstart⟩
  · exact fun s s' hs hstep => (hturn s s' hs hstep).1
  · rintro s c ⟨k, hk⟩ hstep
    exact ⟨k, s, hk, hstep⟩

theorem reportsLastEpoch_of_suffices (h : AtTurn call clock start k s)
    (hstep : calibrationTurn call clock s = .done c) (hc : c = runEpoch call clock s) :
    ReportsLastEpoch call clock start c := by
  intro hassert
  refine ⟨?_, s, h.reached, hstep, ?_⟩
  · subst hc
    exact (iterationsDone_of_no_assert call hassert).symm
  · subst hc
    exact ⟨rfl, rfl, rfl, rfl, rfl⟩

theorem capped_values (h : AtTurn call clock start 30 s) (hgo : ¬ Suffices call clock start.calls 30)
    (hc : c = { runEpoch call clock s with iterations := 2 ^ (30 + 1) }) :
    c.hadAssert = false ∧ c.iterations = 2 ^ 31 ∧ c.completed = 2 ^ 30 := by
  have hassert : (runEpoch call clock s).hadAssert = false := by
    have hshort := mt h.suffices_iff.mp hgo
    rw [Bool.not_eq_true, Bool.or_eq_false_iff] at hshort
    exact hshort.1
  have hdone : (runEpoch call clock s).completed = s.iterations := iterationsDone_of_no_assert call hassert
  subst hc
  exact ⟨hassert, rfl, hdone.trans h.iterations⟩

/-- The calibration returns, and what it returns describes the last epoch it ran
if and only if some epoch of at most 2^30 calls sufficed. -/
theorem calibration_reports_last_epoch_iff (call : Nat → Invocation) (clock : EpochClock T) (zero : T) (calls : Calls) :
    ∃ c, Ends (calibrationTurn call clock) (calibrationStart zero calls) c ∧
      (ReportsLastEpoch call clock (calibrationStart zero calls) c ↔
        ∃ k, k ≤ 30 ∧ Suffices call clock calls k) := by
  obtain ⟨c, hc, k, s, hk, hstep⟩ := calibration_returns call clock
    (show (calibrationStart zero calls).iterations = 1 from rfl)
  refine ⟨c, hc, ?_⟩
  rcases hk.returns hstep with ⟨hsuffices, rfl⟩ | ⟨hgo, rfl, heq⟩
  · exact ⟨fun _ => ⟨k, hk.le, hsuffices⟩, fun _ => reportsLastEpoch_of_suffices hk hstep rfl⟩
  · obtain ⟨hassert, hiterations, hcompleted⟩ := capped_values hk hgo heq
    constructor
    · intro hreports
      have hsame := (hreports hassert).1
      rw [hiterations, hcompleted] at hsame
      exact absurd hsame (by decide)
    · rintro ⟨j, hj, hsuffices⟩
      rcases Nat.lt_or_eq_of_le hj with hj | rfl
      · exact absurd hsuffices (hk.before j hj)
      · exact absurd hsuffices hgo

-- A function that does nothing, on a clock no epoch is long enough for.
theorem idle_calibration_overshoots :
    ∃ c, Ends (calibrationTurn (fun _ => {}) ⟨fun _ _ => 0, fun _ => false⟩) (calibrationStart 0 {}) c ∧
      c.hadAssert = false ∧ c.iterations = 2 ^ 31 ∧ c.completed = 2 ^ 30 ∧
      ¬ ReportsLastEpoch (fun _ => {}) ⟨fun _ _ => 0, fun _ => false⟩ (calibrationStart 0 {}) c := by
  let clock : EpochClock Nat := ⟨fun _ _ => 0, fun _ => false⟩
  have hnever : ∀ k s, ¬ Suffices (fun _ => {}) clock s k := by
    rintro k s (hassert | hlong)
    · obtain ⟨-, -, hclean⟩ := @runPlanned_clean (fun _ => {}) (turnCalls (fun _ => {}) s k)
        ⟨benchSkipReason, 2 ^ k⟩ fun _ _ _ => ⟨rfl, rfl, rfl, rfl⟩
      exact absurd (hclean.symm.trans hassert) Bool.false_ne_true
    · exact absurd hlong Bool.false_ne_true
  obtain ⟨c, hc, k, s, hk, hstep⟩ := calibration_returns (fun _ => {}) clock
    (show (calibrationStart 0 {}).iterations = 1 from rfl)
  rcases hk.returns hstep with ⟨hsuffices, -⟩ | ⟨hgo, rfl, heq⟩
  · exact absurd hsuffices (hnever _ _)
  · obtain ⟨hassert, hiterations, hcompleted⟩ := capped_values hk hgo heq
    refine ⟨c, hc, hassert, hiterations, hcompleted, fun hreports => ?_⟩
    have hsame := (hreports hassert).1
    rw [hiterations, hcompleted] at hsame
    exact absurd hsame (by decide)

-- ---------------------------------------------------------------------------
-- The calibration of a measured case
-- ---------------------------------------------------------------------------

/-- A timing that finds the same epochs long enough as the clock. -/
def SameTiming (call : Nat → Invocation) (clock : EpochClock T) (timing : Timing) (s : Calls) : Prop :=
  ∀ k, timing.longEnough (2 ^ k) = clock.atLeastMin (clock.elapsed (turnCalls call s k) (2 ^ k))

variable {timing : Timing} {calls : Calls}

theorem SameTiming.suffices_iff (h : SameTiming call clock timing calls) (k : Nat) :
    ((runEpochCalls call (2 ^ k) (turnCalls call calls k)).2 || timing.longEnough (2 ^ k)) = true ↔
      Suffices call clock calls k := by
  simp [Suffices, h k]

theorem SameTiming.calibrateFrom (h : SameTiming call clock timing calls) (hle : k ≤ 30)
    (hbefore : ∀ j, j < k → ¬ Suffices call clock calls j) :
    calibrateEpochIterations call timing calls =
      calibrateFrom call timing (30 - k) (2 ^ k) (turnCalls call calls k) := by
  induction k with
  | zero => rfl
  | succ k ih =>
    have hleft : 30 - k = (30 - (k + 1)) + 1 := by omega
    have hgo := mt (h.suffices_iff k).mp (hbefore k (Nat.lt_succ_self k))
    rw [ih (Nat.le_of_succ_le hle) (fun j hj => hbefore j (Nat.lt_succ_of_lt hj)), hleft, Measured.calibrateFrom,
      if_neg hgo, ← Nat.pow_succ]
    rfl

theorem calibration_agrees (h : SameTiming call clock timing calls) {zero : T}
    (hc : Ends (calibrationTurn call clock) (calibrationStart zero calls) c) :
    calibrateEpochIterations call timing calls = ⟨c.iterations, c.calls, c.hadAssert⟩ := by
  obtain ⟨c', hc', k, s, hk, hstep⟩ := calibration_returns call clock
    (show (calibrationStart zero calls).iterations = 1 from rfl)
  obtain rfl := hc.unique hc'
  have hcalls : s.calls = turnCalls call calls k := hk.calls
  rw [h.calibrateFrom hk.le hk.before]
  rcases hk.returns hstep with ⟨hsuffices, rfl⟩ | ⟨hgo, hlast, rfl⟩
  · have hstop := (h.suffices_iff k).mpr hsuffices
    cases 30 - k with
    | zero => simp only [Measured.calibrateFrom, hstop, if_true, runEpoch, hk.iterations, hcalls]
    | succ left => simp only [Measured.calibrateFrom, hstop, if_true, runEpoch, hk.iterations, hcalls]
  · have hgo' := mt (h.suffices_iff k).mp hgo
    have hleft : 30 - k = 0 := by omega
    simp only [hleft, Measured.calibrateFrom, if_neg hgo', runEpoch, hk.iterations, hcalls, Nat.pow_succ]

end Gentest.Measured
