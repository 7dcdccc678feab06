import Gentest.Context.LocalBuffer
import Gentest.Lib.WriteBehind
import Gentest.Runner.CaseResult

/-!
# What the local buffer does to what a test records

Seen as lists of entries, the contexts and the buffer of a thread are a
write-behind store whose buffer belongs to the current context. A context and
the buffer keep an entry as five parallel vectors, and these are always the
vectors of one list of entries: that is why the n-th failure, its location and
the n-th failure line stay together.
-/

namespace Gentest.Context

open Gentest.Runner (FailureLoc TestContextInfo linesOfKind eventKind)

variable {t t' : Thread} {ctx : Option ContextId} {c : ContextId} {role : CurrentContextRole}
  {f : TestContext → TestContext} {b : WriteBehind ContextId Entry}
  {recorded : List (ContextId × Entry)}

-- ---------------------------------------------------------------------------
-- The vectors of a list of entries
-- ---------------------------------------------------------------------------

def Entry.failure? : Entry → Option (String × FailureLoc)
  | .failure msg loc => some (msg, loc)
  | .log _ => none

def Entry.log? : Entry → Option String
  | .failure _ _ => none
  | .log message => some message

structure Records where
  failures : List String
  failureLocations : List FailureLoc
  logs : List String
  eventLines : List String
  eventKinds : List Char
  deriving DecidableEq, Repr

def Records.append (r s : Records) : Records where
  failures := r.failures ++ s.failures
  failureLocations := r.failureLocations ++ s.failureLocations
  logs := r.logs ++ s.logs
  eventLines := r.eventLines ++ s.eventLines
  eventKinds := r.eventKinds ++ s.eventKinds

/-- Logs leave no line in the event stream. -/
def Records.ofEntries (entries : List Entry) : Records where
  failures := (entries.filterMap Entry.failure?).map Prod.fst
  failureLocations := (entries.filterMap Entry.failure?).map Prod.snd
  logs := entries.filterMap Entry.log?
  eventLines := (entries.filterMap Entry.failure?).map Prod.fst
  eventKinds := (entries.filterMap Entry.failure?).map fun _ => 'F'

def TestContextInfo.records (info : TestContextInfo) : Records :=
  ⟨info.failures, info.failureLocations, info.logs, info.eventLines, info.eventKinds⟩

def TestContextLocalBuffer.records (buffer : TestContextLocalBuffer) : Records :=
  ⟨buffer.failures, buffer.failureLocations, buffer.logs, buffer.eventLines, buffer.eventKinds⟩

theorem Records.ofEntries_append (entries more : List Entry) :
    Records.ofEntries (entries ++ more) =
      (Records.ofEntries entries).append (Records.ofEntries more) := by
  simp [Records.ofEntries, Records.append]

theorem TestContextLocalBuffer.empty_of_records {buffer : TestContextLocalBuffer}
    (h : buffer.records = Records.ofEntries []) : buffer.empty = true := by
  simpa [empty, records, Records.ofEntries, and_assoc] using h

/-- Every line of the event stream is a failure line, so the failure lines are
the whole stream. -/
theorem linesOfKind_of_all {lines : List String} {kinds : List Char} {kind : Char}
    (hlength : kinds.length = lines.length) (hkinds : ∀ k ∈ kinds, k = kind) :
    linesOfKind kind lines kinds = lines := by
  have hall : lines.zipIdx.filter (fun line => eventKind kinds line.2 == kind) = lines.zipIdx := by
    rw [List.filter_eq_self]
    rintro ⟨line, i⟩ hline
    obtain ⟨hi, -⟩ := List.mk_mem_zipIdx_iff_getElem?.mp hline |> List.getElem?_eq_some_iff.mp
    have hi : i < kinds.length := by omega
    simpa [eventKind, hi] using hkinds _ (List.getElem_mem hi)
  simp [linesOfKind, hall]

-- ---------------------------------------------------------------------------
-- The thread refines a write-behind store
-- ---------------------------------------------------------------------------

structure Thread.Refines (t : Thread) (b : WriteBehind ContextId Entry) : Prop where
  stored : ∀ c, TestContextInfo.records (t.contexts c).info = Records.ofEntries (b.stored c)
  owner : t.currentBuffer.owner = b.owner
  pending : t.currentBuffer.records = Records.ofEntries b.pending

/-- Counters, states and flags of a context are not part of its entries. -/
theorem Thread.Refines.modifyContext (h : t.Refines b)
    (hf : ∀ ctx, TestContextInfo.records (f ctx).info = TestContextInfo.records ctx.info) :
    (t.modifyContext c f).Refines b := by
  refine ⟨?_, h.owner, h.pending⟩
  intro d
  by_cases hd : d = c
  · subst hd
    simpa [Thread.modifyContext, hf] using h.stored d
  · simpa [Thread.modifyContext, hd] using h.stored d

theorem TestContextLocalBuffer.clear_of_empty {buffer : TestContextLocalBuffer}
    (h : buffer.empty = true) : buffer.clear = buffer := by
  obtain ⟨owner, failures, locations, logs, lines, kinds⟩ := buffer
  simp_all [empty, clear]

theorem TestContext.append_of_empty {buffer : TestContextLocalBuffer} (h : buffer.empty = true)
    (ctx : TestContext) : ctx.append buffer = ctx := by
  simp_all [TestContextLocalBuffer.empty, append]

/-- An empty buffer may be flushed as well: nothing is moved. -/
theorem Thread.flushCurrentBufferFor_owner (howner : t.currentBuffer.owner = some c) :
    t.flushCurrentBufferFor (some c) =
      { t.modifyContext c (·.append t.currentBuffer) with
        currentBuffer := t.currentBuffer.clear } := by
  by_cases hempty : t.currentBuffer.empty = true
  · simp [flushCurrentBufferFor, hempty, modifyContext, TestContext.append_of_empty,
      TestContextLocalBuffer.clear_of_empty]
  · simp [flushCurrentBufferFor, howner, hempty]

theorem Thread.flushCurrentBufferFor_foreign (howner : t.currentBuffer.owner ≠ some c) :
    t.flushCurrentBufferFor (some c) = t := by
  simp [flushCurrentBufferFor, howner]

theorem Thread.Refines.flush (h : t.Refines b) :
    (t.flushCurrentBufferFor (some c)).Refines (b.flush c) := by
  by_cases howner : b.owner = some c
  · rw [t.flushCurrentBufferFor_owner (h.owner.trans howner)]
    have hstored := h.stored
    have hpending := h.pending
    simp only [WriteBehind.flush, howner, if_true]
    refine ⟨?_, h.owner.trans howner, rfl⟩
    intro d
    by_cases hd : d = c
    · subst hd
      specialize hstored d
      simp only [TestContextInfo.records, TestContextLocalBuffer.records] at hstored hpending
      simp [Records.ofEntries_append, ← hstored, ← hpending, Thread.modifyContext,
        TestContext.append, Records.append, TestContextInfo.records]
    · simpa [hd, Thread.modifyContext] using hstored d
  · have hforeign : t.currentBuffer.owner ≠ some c := by
      rw [h.owner]
      exact howner
    simpa [t.flushCurrentBufferFor_foreign hforeign, WriteBehind.flush, howner] using h

/-- Making another context current hands the buffer over. -/
theorem Thread.Refines.setCurrentTest (h : t.Refines b) (howner : b.owner = t.currentTest) :
    (t.setCurrentTest ctx role).Refines (b.handTo ctx) := by
  cases hcurrent : t.currentTest with
  | none =>
    simp only [Thread.setCurrentTest, hcurrent, WriteBehind.handTo, howner]
    exact ⟨h.stored, rfl, h.pending⟩
  | some c =>
    have hflush := h.flush (c := c)
    simp only [Thread.setCurrentTest, hcurrent, WriteBehind.handTo, howner]
    exact ⟨hflush.stored, rfl, hflush.pending⟩

theorem Thread.Refines.write {buffer : TestContextLocalBuffer} {entry : Entry} (h : t.Refines b)
    (howner : buffer.owner = t.currentBuffer.owner)
    (hrecords : buffer.records = t.currentBuffer.records.append (.ofEntries [entry])) :
    { t with currentBuffer := buffer }.Refines (b.write entry) := by
  refine ⟨h.stored, howner.trans h.owner, ?_⟩
  calc buffer.records
      = t.currentBuffer.records.append (.ofEntries [entry]) := hrecords
    _ = (Records.ofEntries b.pending).append (.ofEntries [entry]) := by rw [h.pending]
    _ = .ofEntries (b.pending ++ [entry]) := (Records.ofEntries_append ..).symm

-- ---------------------------------------------------------------------------
-- Entries are filed under the context that was current
-- ---------------------------------------------------------------------------

/-- What was recorded while a context was current. -/
def entriesOf (c : ContextId) (recorded : List (ContextId × Entry)) : List Entry :=
  (recorded.filter fun r => r.1 == c).map Prod.snd

@[simp] theorem entriesOf_append (recorded more : List (ContextId × Entry)) :
    entriesOf c (recorded ++ more) = entriesOf c recorded ++ entriesOf c more := by
  simp [entriesOf]

theorem entriesOf_singleton (d : ContextId) (entry : Entry) :
    entriesOf d [(c, entry)] = if d = c then [entry] else [] := by
  by_cases hd : d = c
  · simp [entriesOf, hd]
  · simp [entriesOf, hd, Ne.symm hd]

/-- The contexts and the buffer hold what was recorded, each entry under the
context that was current then. -/
structure Filed (recorded : List (ContextId × Entry)) (t : Thread)
    (b : WriteBehind ContextId Entry) : Prop where
  refines : t.Refines b
  owner : b.owner = t.currentTest
  idle : b.owner = none → b.pending = []
  content : ∀ c, b.content c = entriesOf c recorded

def Thread.Files (t : Thread) (recorded : List (ContextId × Entry)) : Prop :=
  ∃ b, Filed recorded t b

theorem files_start : Thread.Files {} [] :=
  ⟨⟨fun _ => [], none, []⟩, ⟨fun _ => rfl, rfl, rfl⟩, rfl, fun _ => rfl, fun _ => rfl⟩

theorem Thread.Files.congr (h : t.Files recorded) (hcontexts : t'.contexts = t.contexts)
    (hcurrent : t'.currentTest = t.currentTest) (hbuffer : t'.currentBuffer = t.currentBuffer) :
    t'.Files recorded := by
  obtain ⟨b, ⟨hstored, howner, hpending⟩, hcurrent', hidle, hcontent⟩ := h
  refine ⟨b, ⟨?_, ?_, ?_⟩, ?_, hidle, hcontent⟩
  · rwa [hcontexts]
  · rwa [hbuffer]
  · rwa [hbuffer]
  · rwa [hcurrent]

theorem Thread.Files.modifyContext (h : t.Files recorded) (c : ContextId)
    (f : TestContext → TestContext)
    (hf : ∀ ctx, TestContextInfo.records (f ctx).info = TestContextInfo.records ctx.info) :
    (t.modifyContext c f).Files recorded := by
  obtain ⟨b, hb⟩ := h
  exact ⟨b, hb.refines.modifyContext hf, hb.owner, hb.idle, hb.content⟩

theorem Thread.flushCurrentBufferFor_currentTest :
    (t.flushCurrentBufferFor ctx).currentTest = t.currentTest := by
  unfold flushCurrentBufferFor
  split
  · rfl
  · split <;> rfl

theorem Thread.Files.flush (h : t.Files recorded) :
    (t.flushCurrentBufferFor ctx).Files recorded := by
  cases ctx with
  | none => exact h
  | some c =>
    obtain ⟨b, hb⟩ := h
    refine ⟨b.flush c, hb.refines.flush, ?_, ?_, ?_⟩
    · rw [b.flush_owner, hb.owner, flushCurrentBufferFor_currentTest]
    · intro hidle
      rw [b.flush_owner] at hidle
      exact b.flush_pending_of_nil (hb.idle hidle)
    · intro d
      rw [b.content_flush, hb.content]

theorem Thread.Files.setCurrentTest (h : t.Files recorded) :
    (t.setCurrentTest ctx role).Files recorded := by
  obtain ⟨b, hb⟩ := h
  refine ⟨b.handTo ctx, hb.refines.setCurrentTest hb.owner, ?_, ?_, ?_⟩
  · rw [b.handTo_owner]
    rfl
  · intro _
    exact b.handTo_pending hb.idle ctx
  · intro d
    rw [b.content_handTo hb.idle, hb.content]

theorem Thread.Files.write {buffer : TestContextLocalBuffer} {entry : Entry}
    (h : t.Files recorded) (hcurrent : t.currentTest = some c)
    (howner : buffer.owner = t.currentBuffer.owner)
    (hrecords : buffer.records = t.currentBuffer.records.append (.ofEntries [entry])) :
    { t with currentBuffer := buffer }.Files (recorded ++ [(c, entry)]) := by
  obtain ⟨b, hb⟩ := h
  have hbowner : b.owner = some c := hb.owner.trans hcurrent
  refine ⟨b.write entry, hb.refines.write howner hrecords, hb.owner, ?_, ?_⟩
  · intro hidle
    exact absurd (hbowner.symm.trans hidle) (by simp)
  · intro d
    rw [b.content_write hbowner, hb.content, entriesOf_append, entriesOf_singleton]

theorem Thread.Files.owner (h : t.Files recorded) : t.currentBuffer.owner = t.currentTest := by
  obtain ⟨b, hb⟩ := h
  exact hb.refines.owner.trans hb.owner

/-- The buffer never has a foreign owner, so nobody has to take it over. -/
theorem Thread.Files.takeBuffer (h : t.Files recorded) : t.takeBuffer = t := by
  simp [Thread.takeBuffer, h.owner]

-- ---------------------------------------------------------------------------
-- Operations
-- ---------------------------------------------------------------------------

theorem Thread.acceptsLateTestOperation_some (h : t.acceptsLateTestOperation ctx = true) :
    ∃ c, ctx = some c := by
  cases ctx with
  | none => simp [acceptsLateTestOperation] at h
  | some c => exact ⟨c, rfl⟩

/-- A failure is recorded only while a context is current. -/
theorem Thread.record_ok {msg : String} {loc : FailureLoc} (h : t.record msg loc = .ok t') :
    ∃ c, t.currentTest = some c ∧
      t' = ({ t.takeBuffer with
        currentBuffer := t.takeBuffer.currentBuffer.addFailure msg loc }).modifyContext c
          .markFailed := by
  unfold record prepareCurrentFailureBuffer requireOwnerContext at h
  by_cases haccepts : t.acceptsLateTestOperation t.currentTest = true
  · obtain ⟨c, hcurrent⟩ := acceptsLateTestOperation_some haccepts
    refine ⟨c, hcurrent, ?_⟩
    by_cases hrole : t.currentContextRole = .owner
    · simp only [hcurrent] at haccepts
      simp only [hcurrent, haccepts, hrole] at h
      cases h
      rfl
    · simp only [haccepts, hrole] at h
      cases h
  · simp only [haccepts] at h
    cases h

theorem Thread.log_ok {message : String} (h : t.log message = .ok t') :
    ∃ c, t.currentTest = some c ∧
      t' = ({ t.takeBuffer with
        currentBuffer := { t.takeBuffer.currentBuffer with
          logs := t.takeBuffer.currentBuffer.logs ++ [message] } }).modifyContext c
            (·.countLog message) := by
  unfold log at h
  by_cases haccepts : t.acceptsLateTestOperation t.currentTest = true
  · obtain ⟨c, hcurrent⟩ := acceptsLateTestOperation_some haccepts
    refine ⟨c, hcurrent, ?_⟩
    simp only [hcurrent] at haccepts
    simp only [hcurrent, haccepts] at h
    cases h
    rfl
  · simp only [haccepts] at h
    cases h

theorem Thread.Files.record {msg : String} {loc : FailureLoc} (h : t.Files recorded)
    (hstep : t.record msg loc = .ok t') :
    ∃ c, t.currentTest = some c ∧ t'.Files (recorded ++ [(c, .failure msg loc)]) := by
  obtain ⟨c, hcurrent, rfl⟩ := record_ok hstep
  refine ⟨c, hcurrent, ?_⟩
  rw [h.takeBuffer]
  refine Thread.Files.modifyContext ?_ c _ ?_
  · exact h.write hcurrent rfl (by simp [TestContextLocalBuffer.addFailure,
      TestContextLocalBuffer.records, Records.append, Records.ofEntries, Entry.failure?,
      Entry.log?])
  · intro ctx
    rfl

theorem Thread.Files.log {message : String} (h : t.Files recorded)
    (hstep : t.log message = .ok t') :
    ∃ c, t.currentTest = some c ∧ t'.Files (recorded ++ [(c, .log message)]) := by
  obtain ⟨c, hcurrent, rfl⟩ := log_ok hstep
  refine ⟨c, hcurrent, ?_⟩
  rw [h.takeBuffer]
  refine Thread.Files.modifyContext ?_ c _ ?_
  · exact h.write hcurrent rfl (by simp [TestContextLocalBuffer.records, Records.append,
      Records.ofEntries, Entry.failure?, Entry.log?])
  · intro ctx
    rfl

theorem closeContextIfReleased_info (ctx : TestContext) :
    (closeContextIfReleased ctx).info = ctx.info := by
  unfold closeContextIfReleased
  split <;> rfl

theorem Thread.Files.acquireAdoptedContext (h : t.Files recorded) :
    (t.acquireAdoptedContext ctx).Files recorded := by
  cases ctx with
  | none => exact h
  | some c =>
    unfold Thread.acquireAdoptedContext
    exact h.modifyContext c _ fun _ => rfl

theorem Thread.Files.releaseAdoptedContext (h : t.Files recorded) :
    (t.releaseAdoptedContext ctx).Files recorded := by
  cases ctx with
  | none => exact h
  | some c =>
    unfold Thread.releaseAdoptedContext
    refine h.modifyContext c _ fun ctx => ?_
    dsimp only
    split
    · rw [closeContextIfReleased_info]
    · rfl

theorem Thread.Files.push (h : t.Files recorded) (scope : Scope) : (t.push scope).Files recorded :=
  h.congr rfl rfl rfl

theorem Thread.Files.leaveStopRequest {saved : Saved} {finishing : Option Saved}
    (h : t.Files recorded) (hstep : t.leaveStopRequest c saved finishing = .ok t') :
    t'.Files recorded := by
  cases finishing with
  | none =>
    cases hstep
    exact h.setCurrentTest
  | some finishing =>
    simp only [Thread.leaveStopRequest] at hstep
    split at hstep
    · cases hstep
    · cases hstep
      have hleft : (t.restore saved).Files recorded := h.setCurrentTest
      have hclosed := hleft.modifyContext c (fun c => { c with state := .closed }) fun _ => rfl
      exact hclosed.setCurrentTest

theorem Thread.Files.requestActiveTestContextStop {finishing : Option Saved}
    (h : t.Files recorded) (hstep : t.requestActiveTestContextStop c finishing = .ok t') :
    t'.Files recorded := by
  have hentered : (t.setCurrentTest (some c) .owner).Files recorded := h.setCurrentTest
  simp only [Thread.requestActiveTestContextStop] at hstep
  split at hstep
  · exact hentered.leaveStopRequest hstep
  · cases hstep
    have hstopping := hentered.modifyContext c (fun c => { c with state := .stopping }) fun _ => rfl
    apply Thread.Files.push
    split
    · exact hstopping.congr rfl rfl rfl
    · exact hstopping

theorem Thread.Files.close (h : t.Files recorded) (hstep : t.close = .ok t') :
    t'.Files recorded := by
  unfold Thread.close at hstep
  split at hstep
  · cases hstep
  · rename_i scope scopes _
    have hpopped : { t with scopes := scopes }.Files recorded := h.congr rfl rfl rfl
    cases scope with
    | testContext saved =>
      cases hstep
      exact hpopped.setCurrentTest
    | test ctx saved =>
      cases ctx with
      | none =>
        cases hstep
        exact hpopped
      | some c => exact hpopped.requestActiveTestContextStop hstep
    | lease leased saved =>
      cases hstep
      exact Thread.Files.releaseAdoptedContext hpopped.setCurrentTest
    | stopRequest c role saved finishing =>
      have hrole : { t with scopes := scopes, currentContextRole := role }.Files recorded :=
        hpopped.congr rfl rfl rfl
      exact hrole.leaveStopRequest hstep

theorem Thread.recording_of_none {op : Op} (h : op.entry = none) : t.recording op = [] := by
  unfold Thread.recording
  split
  · simp_all
  · rfl

/-- One operation files what it records, and moves nothing else. -/
theorem Thread.Files.step {op : Op} (h : t.Files recorded) (hstep : t.step op = .ok t') :
    t'.Files (recorded ++ t.recording op) := by
  cases op with
  | recordFailure msg =>
    obtain ⟨c, hcurrent, hfiles⟩ := h.record hstep
    simpa [Thread.recording, hcurrent, Op.entry] using hfiles
  | recordFailureAt msg file line =>
    obtain ⟨c, hcurrent, hfiles⟩ := h.record hstep
    simpa [Thread.recording, hcurrent, Op.entry] using hfiles
  | log message =>
    obtain ⟨c, hcurrent, hfiles⟩ := h.log hstep
    simpa [Thread.recording, hcurrent, Op.entry] using hfiles
  | requestStop c =>
    rw [recording_of_none rfl, List.append_nil]
    exact h.requestActiveTestContextStop hstep
  | close =>
    rw [recording_of_none rfl, List.append_nil]
    exact h.close hstep
  | startContext c limit =>
    cases hstep
    rw [recording_of_none rfl, List.append_nil]
    exact h.modifyContext c _ fun _ => rfl
  | openTestContextScope ctx =>
    cases hstep
    rw [recording_of_none rfl, List.append_nil]
    exact h.setCurrentTest.push _
  | openTestScope ctx =>
    cases hstep
    rw [recording_of_none rfl, List.append_nil]
    exact h.setCurrentTest.push _
  | openLease ctx =>
    cases hstep
    rw [recording_of_none rfl, List.append_nil]
    exact h.acquireAdoptedContext.setCurrentTest.push _
  | flushCurrentBufferFor ctx =>
    cases hstep
    rw [recording_of_none rfl, List.append_nil]
    exact h.flush

theorem Thread.step_of_toOption {op : Op} (h : (t.step op).toOption = some t') :
    t.step op = .ok t' := by
  cases hstep : t.step op with
  | error e => simp [hstep, Except.toOption] at h
  | ok next => simpa [hstep, Except.toOption] using h

theorem Thread.Files.run {ops : List Op} (h : t.Files recorded) (hrun : t.run ops = some t') :
    t'.Files (recorded ++ t.recordings ops) := by
  induction ops generalizing t recorded with
  | nil =>
    cases hrun
    simpa [Thread.recordings] using h
  | cons op ops ih =>
    obtain ⟨next, hnext, hrun⟩ := Interleaving.run_cons.mp hrun
    have hstep := step_of_toOption hnext
    simpa [Thread.recordings, hstep] using ih (h.step hstep) hrun

end Gentest.Context
