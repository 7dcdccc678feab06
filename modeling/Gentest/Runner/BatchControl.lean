import Gentest.Lib.Interleaving
import Gentest.Runner.BatchMoves

/-!
# When the batch executor stops

A function of the executor that asks to stop does so because `should_stop` says
so, and `should_stop` keeps saying so.
-/

namespace Gentest.Runner.AsyncExecutor

open Interleaving (kept_of_moves)
open Loops (loopUntil loopUntil_stopped)
open Relation (ReflTransGen)

/-- A counter that fail-fast looks at is not zero. -/
def Batch.Problem (b : Batch) : Prop := b.state.counters.failures > 0 ∨ b.state.counters.blocked > 0

theorem tally_failures_le (o : Outcome) (runtimeBlocked : Bool) (c : TestCounters) :
    c.failures ≤ (o.tally runtimeBlocked c).failures ∧ c.blocked ≤ (o.tally runtimeBlocked c).blocked := by
  cases o <;> simp [Outcome.tally]

theorem Batch.Problem.apply (h : Batch.Problem b) (occurrence : Nat) (event : CaseEvent) :
    (b.apply occurrence event).Problem := by
  obtain ⟨o, hcounted, -⟩ := event.apply_counted b.state
  have hle := tally_failures_le o event.runtimeBlocked b.state.countTotal.counters
  rw [← hcounted.counters] at hle
  exact h.imp (fun hf => Nat.lt_of_lt_of_le hf hle.1) fun hb => Nat.lt_of_lt_of_le hb hle.2

theorem Batch.Problem.move (h : Batch.Problem b) (hmove : Move env b b') : b'.Problem := by
  cases hmove with
  | tick | advance => exact h
  | update hrun hopen hu => exact h
  | @finish _ i run run' hrun hopen hr event =>
    have hset : (b.setRun i run').Problem := h
    exact hset.apply _ _
  | force hrun hopen hr hstop test hooks =>
    refine Batch.Problem.apply ?_ _ _
    exact h
  | defer hrun hopen hr => exact h
  | destroy hdeferred hvoid => exact h
  | settle hdeferred howed hrun event =>
    refine Batch.Problem.apply ?_ _ _
    exact h

theorem Batch.Problem.cancelMove (h : Batch.Problem b) (hmove : CancelMove env b b') : b'.Problem := by
  cases hmove with
  | move hmove => exact h.move hmove
  | cancel hrun hopen hr adopted => cases adopted <;> exact h

theorem shouldStop_iff (env : Env) (b : Batch) :
    b.shouldStop env = true ↔ env.failFast = true ∧ (b.failFastStopRequested = true ∨ b.Problem) := by
  simp [Batch.shouldStop, Batch.Problem, or_assoc]

theorem requested_cancelMove (h : Batch.failFastStopRequested b = true) (hmove : CancelMove env b b') :
    b'.failFastStopRequested = true := by
  cases hmove with
  | move hmove => cases hmove <;> first | exact h | rfl
  | cancel hrun hopen hr adopted => cases adopted <;> exact h

theorem shouldStop_cancel (h : ReflTransGen (CancelMove env) b b') (hb : b.shouldStop env = true) :
    b'.shouldStop env = true := by
  refine kept_of_moves h (P := fun b => b.shouldStop env = true) (fun b b' hb hmove => ?_) hb
  rw [shouldStop_iff] at hb ⊢
  exact ⟨hb.1, hb.2.imp (fun h => requested_cancelMove h hmove) fun h => h.cancelMove hmove⟩

variable (env : Env)

/-- `progress` asks to stop exactly when `should_stop` does. -/
theorem progress_stop (b : Batch) : (b.progress env).2 = (b.progress env).1.shouldStop env := by
  simp [Batch.progress, Batch.finalizeCompletedRuns]

/-- A loop that stopped did so because its body did. -/
theorem stop_of_loopUntil {body : α → Batch → Batch × Bool}
    (hbody : ∀ a b, (body a b).2 = true → (body a b).1.shouldStop env = true)
    (h : (loopUntil body as b).2 = true) : (loopUntil body as b).1.shouldStop env = true :=
  loopUntil_stopped (Q := fun b => b.shouldStop env = true) hbody h

theorem stop_of_progress {b : Batch} (h : (b.progress env).2 = true) :
    (b.progress env).1.shouldStop env = true := (progress_stop env b).symm.trans h

theorem stop_of_pumpAsync {b : Batch} (h : (b.pumpAsync env).2 = true) :
    (b.pumpAsync env).1.shouldStop env = true := by
  unfold Batch.pumpAsync at h ⊢
  dsimp only at h ⊢
  split
  · rename_i hstop
    exact stop_of_progress env hstop
  · rename_i hgo
    rw [if_neg hgo] at h
    split
    · rename_i hfast
      rw [if_pos hfast] at h
      split
      · rename_i hstop
        exact stop_of_loopUntil env (fun r b => stop_of_progress env) hstop
      · rename_i hgo
        rw [if_neg hgo] at h
        exact stop_of_progress env h
    · rename_i hslow
      rw [if_neg hslow] at h
      exact stop_of_progress env h

theorem stop_of_drainOne (r : Resume) (b : Batch) (h : (drainOne env r b).2 = true) :
    (drainOne env r b).1.shouldStop env = true := by
  unfold drainOne at h ⊢
  split
  · assumption
  · rename_i hgo
    rw [if_neg hgo] at h
    exact stop_of_progress env h

theorem stop_of_drainRound (round : List Resume) (b : Batch) (h : (drainRound env round b).2 = true) :
    (drainRound env round b).1.shouldStop env = true := by
  unfold drainRound at h ⊢
  dsimp only at h ⊢
  split
  · rename_i hstop
    exact stop_of_loopUntil env (stop_of_drainOne env) hstop
  · rename_i hgo
    rw [if_neg hgo] at h
    exact stop_of_progress env h

theorem stop_of_markOne (i : Nat) (b : Batch) (h : (markOne env i b).2 = true) :
    (markOne env i b).1.shouldStop env = true := by
  unfold markOne at h ⊢
  dsimp only at h ⊢
  split
  · rename_i hstop
    exact stop_of_progress env hstop
  · rename_i hgo
    rw [if_neg hgo] at h
    split at h
    · cases h
    · split at h
      · cases h
      · rename_i hmark
        simp only [hmark]
        exact stop_of_progress env h

theorem stop_of_finishUnresumable {b : Batch} (h : (b.finishUnresumable env).2 = true) :
    (b.finishUnresumable env).1.shouldStop env = true := by
  unfold Batch.finishUnresumable at h ⊢
  dsimp only at h ⊢
  split
  · rename_i hstop
    exact stop_of_loopUntil env (stop_of_drainRound env) hstop
  · rename_i hgo
    rw [if_neg hgo] at h
    exact stop_of_loopUntil env (stop_of_markOne env) h

theorem stop_of_finishPendingRun (i : Nat) (b : Batch) (h : (finishPendingRun env i b).2 = true) :
    (finishPendingRun env i b).1.shouldStop env = true := by
  unfold finishPendingRun at h ⊢
  split at h
  · cases h
  · split at h
    · cases h
    · rename_i hopen
      simp only [hopen]
      exact h

theorem shouldStop_advance (b : Batch) :
    b.advanceFirstUnfinalized.shouldStop env = b.shouldStop env := rfl

theorem stop_of_finishPendingAsyncGroup {b : Batch} (h : (b.finishPendingAsyncGroup env).2 = true) :
    (b.finishPendingAsyncGroup env).1.shouldStop env = true := by
  unfold Batch.finishPendingAsyncGroup at h ⊢
  dsimp only at h ⊢
  split
  · assumption
  · rename_i hgo
    rw [if_neg hgo] at h
    split
    · assumption
    · rename_i hgo
      rw [if_neg hgo] at h
      split
      · rename_i hdrained
        simp only [Bool.and_eq_true] at hdrained
        have hstop := stop_of_finishUnresumable env hdrained.1
        have hkept := shouldStop_cancel (Moves.cancel env (moves_finalizeCompletedRuns env _)) hstop
        exact absurd hkept hgo
      · rename_i hdrained
        rw [if_neg hdrained] at h
        split
        · rename_i hstop
          rw [shouldStop_advance]
          exact stop_of_loopUntil env (stop_of_finishPendingRun env) hstop
        · rename_i hgo
          rw [if_neg hgo] at h
          dsimp only at h ⊢
          exact h

theorem stop_of_handleCase (caseIndex : Nat) (b : Batch) (h : (handleCase env caseIndex b).2 = true) :
    (handleCase env caseIndex b).1.shouldStop env = true := by
  unfold handleCase at h ⊢
  dsimp only at h ⊢
  split
  · rename_i hstop
    exact stop_of_pumpAsync env hstop
  · rename_i hgo
    rw [if_neg hgo] at h
    exact stop_of_pumpAsync env h

theorem stop_of_collectGroup (group : FixtureGroupPlan) (b : Batch)
    (h : (collectGroup env group b).2 = true) : (collectGroup env group b).1.shouldStop env = true := by
  unfold collectGroup at h ⊢
  dsimp only at h ⊢
  split
  · rename_i hfixture
    simp only [hfixture] at h
    exact stop_of_loopUntil env (fun _ _ h => h) h
  · rename_i hfixture
    simp only [hfixture] at h
    split
    · rename_i hstop
      exact stop_of_loopUntil env (stop_of_handleCase env) hstop
    · rename_i hgo
      rw [if_neg hgo] at h
      exact stop_of_finishPendingAsyncGroup env h

theorem stop_of_runPlan (plan : SuiteExecutionPlan) (b : Batch) (h : (runPlan env plan b).2 = true) :
    (runPlan env plan b).1.shouldStop env = true := by
  unfold runPlan at h ⊢
  dsimp only at h ⊢
  split
  · rename_i hstop
    exact stop_of_loopUntil env (stop_of_handleCase env) hstop
  · rename_i hgo
    rw [if_neg hgo] at h
    split
    · rename_i hstop
      exact stop_of_finishPendingAsyncGroup env hstop
    · rename_i hgo
      rw [if_neg hgo] at h
      split
      · rename_i hstop
        exact stop_of_loopUntil env (stop_of_collectGroup env) hstop
      · rename_i hgo
        rw [if_neg hgo] at h
        exact stop_of_loopUntil env (stop_of_collectGroup env) h

end Gentest.Runner.AsyncExecutor
