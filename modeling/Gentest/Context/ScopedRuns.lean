import Gentest.Context.Buffering

/-!
# Runs of a thread through nested scopes

Closing the scopes of a thread leads back to no current context, whatever was
opened and closed on the way, so a run that has closed all of them has left
nothing in the buffer.
-/

namespace Gentest.Context

open Gentest.Runner (FailureLoc TestContextInfo linesOfKind)

variable {t t' : Thread} {ctx : Option ContextId} {c : ContextId} {role : CurrentContextRole}
  {f : TestContext → TestContext}

-- ---------------------------------------------------------------------------
-- Nesting
-- ---------------------------------------------------------------------------

def Scope.putsBack : Scope → Option ContextId
  | .testContext saved | .test _ saved | .lease _ saved => saved.previous
  | .stopRequest _ _ saved finishing => (finishing.getD saved).previous

/-- The scopes lead back to a thread without current context. A
`CurrentTestScope` without context puts nothing back, so nothing is current
until the scope below it closes. -/
def Nested : Option ContextId → List Scope → Prop
  | current, [] => current = none
  | current, .test none saved :: scopes => current = none ∧ Nested saved.previous scopes
  | _, scope :: scopes => Nested scope.putsBack scopes

theorem nested_none {current : Option ContextId} {scopes : List Scope}
    (h : Nested current scopes) : Nested none scopes := by
  unfold Nested at h ⊢
  split at h
  · rfl
  · exact ⟨rfl, h.2⟩
  · exact h

theorem nested_push {scope : Scope} {current : Option ContextId} {scopes : List Scope}
    (hcurrent : ∀ saved, scope = .test none saved → current = none)
    (h : Nested scope.putsBack scopes) : Nested current (scope :: scopes) := by
  unfold Nested
  split
  · contradiction
  · rename_i saved _ heq
    cases heq
    exact ⟨hcurrent saved rfl, h⟩
  · rename_i heq
    cases heq
    exact h

theorem nested_pop {scope : Scope} {current : Option ContextId} {scopes : List Scope}
    (h : Nested current (scope :: scopes)) :
    Nested scope.putsBack scopes ∧ (∀ saved, scope = .test none saved → current = none) := by
  unfold Nested at h
  split at h
  · contradiction
  · rename_i heq
    cases heq
    exact ⟨h.2, fun _ _ => h.1⟩
  · rename_i hne heq
    cases heq
    exact ⟨h, fun saved heq => absurd heq (hne saved)⟩

@[simp] theorem Thread.setCurrentTest_currentTest :
    (t.setCurrentTest ctx role).currentTest = ctx := rfl

@[simp] theorem Thread.flushCurrentBufferFor_scopes :
    (t.flushCurrentBufferFor ctx).scopes = t.scopes := by
  unfold flushCurrentBufferFor
  split
  · rfl
  · split <;> rfl

@[simp] theorem Thread.setCurrentTest_scopes : (t.setCurrentTest ctx role).scopes = t.scopes := by
  simp only [setCurrentTest]
  split
  · exact flushCurrentBufferFor_scopes
  · rfl

@[simp] theorem Thread.takeBuffer_currentTest : t.takeBuffer.currentTest = t.currentTest := by
  unfold takeBuffer
  split
  · exact flushCurrentBufferFor_currentTest
  · rfl

@[simp] theorem Thread.takeBuffer_scopes : t.takeBuffer.scopes = t.scopes := by
  unfold takeBuffer
  split
  · exact flushCurrentBufferFor_scopes
  · rfl

@[simp] theorem Thread.modifyContext_currentTest :
    (t.modifyContext c f).currentTest = t.currentTest := rfl

@[simp] theorem Thread.modifyContext_scopes : (t.modifyContext c f).scopes = t.scopes := rfl

@[simp] theorem Thread.acquireAdoptedContext_scopes :
    (t.acquireAdoptedContext ctx).scopes = t.scopes := by
  cases ctx <;> rfl

@[simp] theorem Thread.releaseAdoptedContext_currentTest :
    (t.releaseAdoptedContext ctx).currentTest = t.currentTest := by
  cases ctx <;> rfl

@[simp] theorem Thread.releaseAdoptedContext_scopes :
    (t.releaseAdoptedContext ctx).scopes = t.scopes := by
  cases ctx <;> rfl

def Thread.WellNested (t : Thread) : Prop := Nested t.currentTest t.scopes

theorem Thread.leaveStopRequest_nested {saved : Saved} {finishing : Option Saved}
    (h : Nested (finishing.getD saved).previous t.scopes)
    (hstep : t.leaveStopRequest c saved finishing = .ok t') : t'.WellNested := by
  cases finishing with
  | none =>
    cases hstep
    simpa [WellNested, restore] using h
  | some finishing =>
    simp only [Thread.leaveStopRequest] at hstep
    split at hstep
    · cases hstep
    · cases hstep
      simpa [WellNested, restore] using h

/-- A stop request that goes on to finish a test scope puts back what that
scope saved; any other one puts back what is current now. -/
theorem Thread.requestActiveTestContextStop_nested {finishing : Option Saved}
    (h : Nested (finishing.getD t.saved).previous t.scopes)
    (hstep : t.requestActiveTestContextStop c finishing = .ok t') : t'.WellNested := by
  simp only [Thread.requestActiveTestContextStop] at hstep
  split at hstep
  · exact leaveStopRequest_nested (by simpa using h) hstep
  · cases hstep
    refine nested_push (fun _ heq => by cases heq) ?_
    split <;> simpa [Scope.putsBack] using h

theorem Thread.WellNested.close (h : t.WellNested) (hstep : t.close = .ok t') :
    t'.WellNested := by
  unfold Thread.close at hstep
  split at hstep
  · cases hstep
  · rename_i scope scopes hscopes
    unfold WellNested at h
    rw [hscopes] at h
    obtain ⟨hback, hcurrent⟩ := nested_pop h
    cases scope with
    | testContext saved =>
      cases hstep
      simpa [WellNested, restore, Scope.putsBack] using hback
    | test ctx saved =>
      cases ctx with
      | none =>
        cases hstep
        simpa [WellNested, hcurrent saved rfl] using nested_none hback
      | some c =>
        refine requestActiveTestContextStop_nested ?_ hstep
        exact hback
    | lease leased saved =>
      cases hstep
      simpa [WellNested, restore, Scope.putsBack] using hback
    | stopRequest c role saved finishing =>
      refine leaveStopRequest_nested ?_ hstep
      exact hback

theorem Thread.WellNested.step {op : Op} (h : t.WellNested) (hstep : t.step op = .ok t') :
    t'.WellNested := by
  cases op with
  | recordFailure msg =>
    obtain ⟨c, -, rfl⟩ := record_ok hstep
    simpa [WellNested] using h
  | recordFailureAt msg file line =>
    obtain ⟨c, -, rfl⟩ := record_ok hstep
    simpa [WellNested] using h
  | log message =>
    obtain ⟨c, -, rfl⟩ := log_ok hstep
    simpa [WellNested] using h
  | requestStop c =>
    refine requestActiveTestContextStop_nested ?_ hstep
    exact h
  | close => exact h.close hstep
  | startContext c limit =>
    cases hstep
    simpa [WellNested] using h
  | openTestContextScope ctx =>
    cases hstep
    refine nested_push (fun _ heq => nomatch heq) ?_
    simpa [Scope.putsBack, saved, WellNested] using h
  | openTestScope ctx =>
    cases hstep
    refine nested_push ?_ ?_
    · rintro saved ⟨⟩
      rfl
    · simpa [Scope.putsBack, saved, WellNested] using h
  | openLease ctx =>
    cases hstep
    refine nested_push (fun _ heq => nomatch heq) ?_
    simpa [Scope.putsBack, saved, WellNested] using h
  | flushCurrentBufferFor ctx =>
    cases hstep
    simpa [WellNested, flushCurrentBufferFor_currentTest] using h

theorem Thread.WellNested.run {ops : List Op} (h : t.WellNested) (hrun : t.run ops = some t') :
    t'.WellNested :=
  Interleaving.run_invariant (fun _ _ _ h hstep => h.step (step_of_toOption hstep)) h hrun

-- ---------------------------------------------------------------------------
-- Whole runs
-- ---------------------------------------------------------------------------

theorem Thread.run_files {ops : List Op} (hrun : Thread.run {} ops = some t) :
    t.Files (Thread.recordings {} ops) := by
  simpa using files_start.run hrun

theorem Thread.run_wellNested {ops : List Op} (hrun : Thread.run {} ops = some t) :
    t.WellNested :=
  Thread.WellNested.run (t := {}) rfl hrun

/-- The failures of a context, in the three forms it keeps them. -/
structure TestContextInfo.Aligned (info : TestContextInfo)
    (failed : List (String × FailureLoc)) : Prop where
  failures : info.failures = failed.map Prod.fst
  locations : info.failureLocations = failed.map Prod.snd
  lines : linesOfKind 'F' info.eventLines info.eventKinds = failed.map Prod.fst

theorem TestContextInfo.aligned_of_records {info : TestContextInfo} {entries : List Entry}
    (h : TestContextInfo.records info = Records.ofEntries entries) :
    TestContextInfo.Aligned info (entries.filterMap Entry.failure?) := by
  obtain ⟨hfailures, hlocations, -, hlines, hkinds⟩ := Records.mk.inj h
  refine ⟨hfailures, hlocations, ?_⟩
  rw [← hlines]
  refine linesOfKind_of_all ?_ ?_
  · rw [hkinds, hlines, List.length_map, List.length_map]
  · rw [hkinds]
    simp

/-- A thread without current context has an empty buffer, and what it files is
what the contexts hold. -/
theorem Thread.Files.stored_of_none {recorded : List (ContextId × Entry)} (h : t.Files recorded)
    (hcurrent : t.currentTest = none) :
    t.currentBuffer.empty = true ∧
      ∀ c, TestContextInfo.records (t.contexts c).info =
        Records.ofEntries (entriesOf c recorded) := by
  obtain ⟨b, hb⟩ := h
  have hpending := hb.idle (hb.owner.trans hcurrent)
  refine ⟨?_, ?_⟩
  · apply TestContextLocalBuffer.empty_of_records
    rw [hb.refines.pending, hpending]
  · intro c
    rw [hb.refines.stored, ← hb.content, b.content_of_pending_nil hpending]

/-- After any operations on one thread the buffer belongs to the current
context, and every context holds the failures recorded while it was current,
each with its location and its line, up to those still in the buffer. Once all
scopes are closed nothing is left in the buffer. -/
theorem buffer_files_every_entry (ops : List Op) (t : Thread)
    (hrun : Thread.run {} ops = some t) :
    (t.currentBuffer.owner = t.currentTest ∧ t.takeBuffer = t) ∧
      (∀ c, ∃ failed, TestContextInfo.Aligned (t.contexts c).info failed ∧
        failed <+: (entriesOf c (Thread.recordings {} ops)).filterMap Entry.failure?) ∧
      (t.scopes = [] → t.currentBuffer.empty = true ∧ ∀ c,
        TestContextInfo.Aligned (t.contexts c).info
          ((entriesOf c (Thread.recordings {} ops)).filterMap Entry.failure?) ∧
        (t.contexts c).info.logs =
          (entriesOf c (Thread.recordings {} ops)).filterMap Entry.log?) := by
  have hfiles := Thread.run_files hrun
  refine ⟨⟨hfiles.owner, hfiles.takeBuffer⟩, ?_, ?_⟩
  · intro c
    obtain ⟨b, hb⟩ := hfiles
    refine ⟨_, TestContextInfo.aligned_of_records (hb.refines.stored c), ?_⟩
    rw [← hb.content c]
    exact (b.stored_isPrefix_content c).filterMap _
  · intro hscopes
    have hcurrent : t.currentTest = none := by
      have hnested := Thread.run_wellNested hrun
      rwa [Thread.WellNested, hscopes, Nested] at hnested
    obtain ⟨hempty, hstored⟩ := hfiles.stored_of_none hcurrent
    refine ⟨hempty, fun c => ⟨TestContextInfo.aligned_of_records (hstored c), ?_⟩⟩
    exact (Records.mk.inj (hstored c)).2.2.1

/-- A test logs and fails, a lease of another test logs in between, and a scope
without context puts nothing back. -/
def nestedOps : List Op :=
  [.startContext 1 0, .startContext 2 1, .openTestScope (some 1), .log "outer",
    .recordFailure "first", .openLease (some 2), .log "adopted", .close,
    .flushCurrentBufferFor (some 1), .recordFailure "second", .openTestContextScope (some 2),
    .openTestScope none, .close, .close, .close, .log "stopping", .close]

theorem buffer_files_nested_ops :
    ∃ t, Thread.run {} nestedOps = some t ∧ t.currentBuffer.empty = true ∧
      (t.contexts 1).info.failures = ["first", "second"] ∧
      (t.contexts 1).info.logs = ["outer", "stopping"] ∧
      (t.contexts 2).info.logs = ["adopted"] := by
  obtain ⟨t, hrun⟩ : ∃ t, Thread.run {} nestedOps = some t :=
    Option.isSome_iff_exists.mp (by decide)
  have hscopes : t.scopes = [] := by
    have h : (Thread.run {} nestedOps).map Thread.scopes = some [] := by decide
    simpa [hrun] using h
  obtain ⟨-, -, hclosed⟩ := buffer_files_every_entry nestedOps t hrun
  obtain ⟨hempty, hfiled⟩ := hclosed hscopes
  exact ⟨t, hrun, hempty, (hfiled 1).1.failures, (hfiled 1).2, (hfiled 2).2⟩

end Gentest.Context
