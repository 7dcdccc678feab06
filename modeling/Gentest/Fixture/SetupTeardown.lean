import Gentest.Fixture.Lifecycle

/-!
# The setup loop and the teardown

What one turn of the setup loop and one work item of the teardown do to an
entry, carried over the whole run: which callbacks are called and in which
order, and what a lookup can see at every moment in between.
-/

namespace Gentest.Fixture

-- ---------------------------------------------------------------------------
-- What a callback's run means and what the code makes of it
-- ---------------------------------------------------------------------------

/-- The callback returned and reported nothing. -/
structure CallbackRun.Succeeded (r : CallbackRun) : Prop where
  returns : r.exit = .returns
  error : r.error = ""
  failures : r.ctx.failures = []
  benchError : r.benchError = ""
  noSkip : r.ctx.runtimeSkipRequested = false

/-- The callback failed, and every text it could be recognised by is empty. -/
structure CallbackRun.FailsSilently (r : CallbackRun) : Prop where
  failed : r.exit = .returns ∧ r.error = "" ∧ r.ctx.failures ≠ [] ∨ r.exit = .assertion ""
  firstFailure : firstRecordedFailure r.ctx = ""
  benchError : r.benchError = ""
  noSkip : r.ctx.runtimeSkipRequested = false

theorem firstRecordedFailure_nil (h : ctx.failures = []) : firstRecordedFailure ctx = "" := by
  rw [firstRecordedFailure, h]
  rfl

theorem stdExceptionText_ne_empty (what : String) : s!"std::exception: {what}" ≠ "" := by
  intro h
  have := (String.append_eq_empty_iff.mp h).1
  exact absurd this (by decide)

/-- The issue is empty only where nothing at all was left to report. -/
theorem resolveFixtureContextIssue_eq_empty :
    resolveFixtureContextIssue ctx bench current assertion skip = "" ↔
      current = "" ∧ firstRecordedFailure ctx = "" ∧ bench = "" ∧ ctx.runtimeSkipRequested = false ∧ skip = false := by
  unfold resolveFixtureContextIssue
  by_cases hfirst : firstRecordedFailure ctx = "" <;> by_cases hcur : current = "" <;>
    by_cases hbench : bench = "" <;> cases hskip : ctx.runtimeSkipRequested <;>
    by_cases hreason : ctx.runtimeSkipReason = "" <;> cases skip <;> cases assertion <;> simp [*]

theorem CallbackRun.issue_eq_empty (r : CallbackRun) : r.issue = "" ↔ r.Succeeded ∨ r.FailsSilently := by
  rw [CallbackRun.issue, resolveFixtureContextIssue_eq_empty]
  constructor
  · rintro ⟨hcur, hfirst, hbench, hskip, hcaught⟩
    cases hexit : r.exit with
    | returns =>
      have herror : r.error = "" := by simpa [caughtError, hexit] using hcur
      by_cases hfail : r.ctx.failures = []
      · exact .inl ⟨hexit, herror, hfail, hbench, hskip⟩
      · exact .inr ⟨.inl ⟨hexit, herror, hfail⟩, hfirst, hbench, hskip⟩
    | skip => simp [hexit] at hcaught
    | assertion message =>
      have hmessage : message = "" := by simpa [caughtError, hexit] using hcur
      exact .inr ⟨.inr (by rw [hexit, hmessage]), hfirst, hbench, hskip⟩
    | stdException what =>
      rw [caughtError, hexit] at hcur
      exact absurd hcur (stdExceptionText_ne_empty what)
    | unknown => simp [caughtError, hexit] at hcur
  · rintro (h | h)
    · have hcur : r.caughtError = "" := by rw [caughtError, h.returns]; exact h.error
      exact ⟨hcur, firstRecordedFailure_nil h.failures, h.benchError, h.noSkip, by simp [h.returns]⟩
    · have hboth : r.caughtError = "" ∧ (r.exit == .skip) = false := by
        rcases h.failed with ⟨hexit, herror, -⟩ | hexit
        · exact ⟨by rw [caughtError, hexit]; exact herror, by simp [hexit]⟩
        · exact ⟨by rw [caughtError, hexit], by simp [hexit]⟩
      exact ⟨hboth.1, h.firstFailure, h.benchError, h.noSkip, hboth.2⟩

-- ---------------------------------------------------------------------------
-- An entry before and after its turn
-- ---------------------------------------------------------------------------

def instanceOf (b : Behaviour) (i : Nat) (e : SharedFixtureEntry) : Option Address :=
  if e.create.isSome ∧ (b i).create.issue = "" then (b i).create.returned else none

def setupPasses (b : Behaviour) (i : Nat) (e : SharedFixtureEntry) : Bool :=
  e.setup.isNone || (b i).setup.issue == ""

/-- The part of an entry no run changes. -/
structure Same (e₀ e : SharedFixtureEntry) : Prop where
  fixtureName : e.fixtureName = e₀.fixtureName
  suite : e.suite = e₀.suite
  scope : e.scope = e₀.scope
  create : e.create = e₀.create
  setup : e.setup = e₀.setup
  teardown : e.teardown = e₀.teardown

theorem Same.keep (h : Same e₀ e) (hkeep : e'.reset = e.reset) : Same e₀ e' := by
  simp only [SharedFixtureEntry.reset, SharedFixtureEntry.mk.injEq] at hkeep
  obtain ⟨hname, hsuite, hscope, -, -, -, -, -, hcreate, hsetup, hteardown⟩ := hkeep
  exact ⟨hname.trans h.fixtureName, hsuite.trans h.suite, hscope.trans h.scope, hcreate.trans h.create,
    hsetup.trans h.setup, hteardown.trans h.teardown⟩

structure Idle (e₀ e : SharedFixtureEntry) : Prop extends Same e₀ e where
  instancePtr : e.instancePtr = none
  initialized : e.initialized = false
  initializing : e.initializing = false
  failed : e.failed = false

/-- An entry after its turn of the setup loop. -/
structure Settled (b : Behaviour) (i : Nat) (e₀ e : SharedFixtureEntry) : Prop extends Same e₀ e where
  instancePtr : e.instancePtr = instanceOf b i e₀
  initialized : e.initialized = ((instanceOf b i e₀).isSome && setupPasses b i e₀)
  initializing : e.initializing = false
  failed : e.failed = !e.initialized

/-- What a lookup may rely on: an entry that counts as initialized holds the
pointer of a factory and a setup the code took for successes, and its teardown
is not over. -/
structure Sound (b : Behaviour) (released : List Nat) (i : Nat) (e₀ e : SharedFixtureEntry) : Prop
    extends Same e₀ e where
  held : e.initialized = true → e.instancePtr = instanceOf b i e₀ ∧ e.instancePtr.isSome
  passed : e.initialized = true → setupPasses b i e₀ = true
  live : e.initialized = true → i ∉ released

def Moment.Sound (b : Behaviour) (es : List SharedFixtureEntry) (m : Moment) : Prop :=
  ∀ i e, m.reg.entries[i]? = some e → ∃ e₀, es[i]? = some e₀ ∧ Fixture.Sound b m.released i e₀ e

theorem Same.sound (h : Same e₀ e) (hinit : e.initialized = false) : Sound b released i e₀ e where
  toSame := h
  held := fun h => by simp [hinit] at h
  passed := fun h => by simp [hinit] at h
  live := fun h => by simp [hinit] at h

theorem Settled.sound (h : Settled b i e₀ e) (hlive : i ∉ released) : Sound b released i e₀ e where
  toSame := h.toSame
  held := by
    intro hinit
    rw [h.initialized, Bool.and_eq_true] at hinit
    exact ⟨h.instancePtr, by rw [h.instancePtr]; exact hinit.1⟩
  passed := by
    intro hinit
    rw [h.initialized, Bool.and_eq_true] at hinit
    exact hinit.2
  live := fun _ => hlive

theorem Idle.not_settled (h : Idle e₀ e) : e.settled = false := by
  simp [SharedFixtureEntry.settled, h.initialized, h.initializing, h.failed]

theorem Settled.settled (h : Settled b i e₀ e) : e.settled = true := by
  simp [SharedFixtureEntry.settled, h.failed, h.initializing]

-- ---------------------------------------------------------------------------
-- Worlds along a run
-- ---------------------------------------------------------------------------

/-- Every moment so far was sound, and the present one is among them. -/
structure Tracked (b : Behaviour) (es : List SharedFixtureEntry) (w : World) : Prop where
  sound : ∀ m ∈ w.moments, m.Sound b es
  seen : w.moment ∈ w.moments

theorem Tracked.now (h : Tracked b es w) : w.moment.Sound b es := h.sound _ h.seen

theorem Tracked.call (h : Tracked b es w) : Tracked b es (w.call c) := ⟨h.sound, h.seen⟩

theorem tracked_commit {w : World} (hpast : ∀ m ∈ w.moments, m.Sound b es) (hnow : Moment.Sound b es ⟨reg, w.released⟩) :
    Tracked b es (w.commit reg) where
  sound := by
    intro m hm
    rcases List.mem_append.mp hm with hm | hm
    · exact hpast m hm
    · rw [List.mem_singleton.mp hm]
      exact hnow
  seen := List.mem_append_right _ (List.mem_singleton_self _)

/-- A stretch of the run that works on entry `i` alone, leaves it as `e'` and
calls `calls`. -/
structure WorksOn (b : Behaviour) (es : List SharedFixtureEntry) (i : Nat) (calls : List Call) (w w' : World)
    (e' : SharedFixtureEntry) : Prop where
  entry : w'.reg.entries[i]? = some e'
  others : ∀ j, j ≠ i → w'.reg.entries[j]? = w.reg.entries[j]?
  teardownInProgress : w'.reg.teardownInProgress = w.reg.teardownInProgress
  registrationError : w'.reg.registrationError = w.reg.registrationError
  released : w'.released = w.released
  calls : w'.calls = w.calls ++ calls
  past : w.moments ⊆ w'.moments
  tracked : Tracked b es w'

theorem WorksOn.trans (h : WorksOn b es i cs w w' e) (h' : WorksOn b es i cs' w' w'' e') :
    WorksOn b es i (cs ++ cs') w w'' e' where
  entry := h'.entry
  others := fun j hj => (h'.others j hj).trans (h.others j hj)
  teardownInProgress := h'.teardownInProgress.trans h.teardownInProgress
  registrationError := h'.registrationError.trans h.registrationError
  released := h'.released.trans h.released
  calls := by rw [h'.calls, h.calls, List.append_assoc]
  past := fun _ hm => h'.past (h.past hm)
  tracked := h'.tracked

theorem worksOn_maybe_call (h : Tracked b es w) (he : w.reg.entries[i]? = some e) (p : Bool) :
    WorksOn b es i (if p then [c] else []) w (if p then w.call c else w) e := by
  cases p with
  | true => exact ⟨he, fun _ _ => rfl, rfl, rfl, rfl, rfl, fun _ hm => hm, h.call⟩
  | false => exact ⟨he, fun _ _ => rfl, rfl, rfl, rfl, (List.append_nil _).symm, fun _ hm => hm, h⟩

theorem SharedFixtureRegistry.update_self (reg : SharedFixtureRegistry) (h : reg.entries[i]? = some e) :
    (reg.update i f).entries[i]? = some (f e) := by
  simp [SharedFixtureRegistry.update, h]

theorem SharedFixtureRegistry.update_other (reg : SharedFixtureRegistry) (h : j ≠ i) :
    (reg.update i f).entries[j]? = reg.entries[j]? := by
  simp [SharedFixtureRegistry.update, h.symm]

theorem worksOn_update (h : Tracked b es w) (he : w.reg.entries[i]? = some e) (h₀ : es[i]? = some e₀)
    (hsound : Sound b w.released i e₀ (f e)) :
    WorksOn b es i [] w (w.edit i f) (f e) where
  entry := w.reg.update_self he
  others := fun _ hj => w.reg.update_other hj
  teardownInProgress := rfl
  registrationError := rfl
  released := rfl
  calls := (List.append_nil _).symm
  past := List.subset_append_left _ _
  tracked := by
    refine tracked_commit h.sound fun j e' he' => ?_
    by_cases hj : j = i
    · subst hj
      rw [w.reg.update_self he] at he'
      cases he'
      exact ⟨e₀, h₀, hsound⟩
    · rw [w.reg.update_other hj] at he'
      exact h.now j e' he'

-- ---------------------------------------------------------------------------
-- The setup loop
-- ---------------------------------------------------------------------------

def setupCalls (b : Behaviour) (i : Nat) (e : SharedFixtureEntry) : List Call :=
  (if e.create.isSome then [.create i e.suite] else []) ++
    match instanceOf b i e with
    | none => []
    | some p => if e.setup.isSome then [.setup i p] else []

theorem createInstance_eq (b : Behaviour) (i : Nat) (e : SharedFixtureEntry) (w : World) :
    ∃ error, createInstance b i e w =
      (if e.create.isSome then w.call (.create i e.suite) else w, instanceOf b i e, error) := by
  unfold createInstance instanceOf
  cases hcreate : e.create with
  | none => exact ⟨_, rfl⟩
  | some p =>
    refine ⟨(b i).create.issue, ?_⟩
    by_cases hissue : (b i).create.issue = "" <;> simp [hissue]

theorem setupInstance_eq (b : Behaviour) (i : Nat) (e : SharedFixtureEntry) (p : Address) (w : World) :
    ∃ error, setupInstance b i e p w =
      (if e.setup.isSome then w.call (.setup i p) else w, setupPasses b i e, error) := by
  unfold setupInstance setupPasses
  cases hsetup : e.setup with
  | none => exact ⟨_, rfl⟩
  | some q => exact ⟨(b i).setup.issue, by simp [runFixturePhase]⟩

theorem Same.instanceOf (h : Same e₀ e) : instanceOf b i e = Fixture.instanceOf b i e₀ := by
  simp [Fixture.instanceOf, h.create]

theorem Same.setupPasses (h : Same e₀ e) : setupPasses b i e = Fixture.setupPasses b i e₀ := by
  simp [Fixture.setupPasses, h.setup]

theorem Same.setupCalls (h : Same e₀ e) : setupCalls b i e = Fixture.setupCalls b i e₀ := by
  simp [Fixture.setupCalls, h.instanceOf, h.create, h.setup, h.suite]

theorem setupCreated_spec (h : Tracked b es w) (he : w.reg.entries[i]? = some e') (h₀ : es[i]? = some e₀)
    (hsame : Same e₀ e) (hsame' : Same e₀ e') (hinit : e'.initialized = false) (hlive : i ∉ w.released)
    (hinst : instanceOf b i e₀ = some p) :
    ∃ e', WorksOn b es i (if e.setup.isSome then [.setup i p] else []) w (setupCreated b i e p w).1 e' ∧
      Settled b i e₀ e' := by
  have hstored := worksOn_update (f := fun e => { e with instancePtr := some p }) h he h₀
    (Same.sound (hsame'.keep rfl) (by exact hinit))
  have hcalled := hstored.trans
    (worksOn_maybe_call (c := .setup i p) hstored.tracked hstored.entry e.setup.isSome)
  obtain ⟨error, hsetup⟩ := setupInstance_eq b i e p (w.edit i fun e => { e with instancePtr := some p })
  unfold setupCreated
  simp only [hsetup]
  generalize (if e.setup.isSome then _ else w.edit i fun e => { e with instancePtr := some p }) = w₁ at hcalled
  cases hpass : Fixture.setupPasses b i e with
  | false =>
    have hdown : Settled b i e₀ { e' with
        instancePtr := some p, initializing := false, initialized := false, failed := true,
        error := formatFixtureError "setup" error } :=
      ⟨hsame'.keep rfl, hinst.symm, by rw [hinst, ← hsame.setupPasses, hpass]; rfl, rfl, rfl⟩
    have hdone := hcalled.trans (worksOn_update (f := fun e => { e with
        initializing := false, initialized := false, failed := true, error := formatFixtureError "setup" error })
      hcalled.tracked hcalled.entry h₀ (hdown.toSame.sound rfl))
    rw [List.nil_append, List.append_nil] at hdone
    exact ⟨_, hdone, hdown⟩
  | true =>
    have hup : Settled b i e₀ { e' with
        instancePtr := some p, initializing := false, initialized := true, failed := false, error := "" } :=
      ⟨hsame'.keep rfl, hinst.symm, by rw [hinst, ← hsame.setupPasses, hpass]; rfl, rfl, rfl⟩
    have hdone := hcalled.trans (worksOn_update (f := fun e => { e with
        initializing := false, initialized := true, failed := false, error := "" })
      hcalled.tracked hcalled.entry h₀ (hup.sound (by rw [hcalled.released]; exact hlive)))
    rw [List.nil_append, List.append_nil] at hdone
    exact ⟨_, hdone, hup⟩

theorem setupEntry_spec (h : Tracked b es w) (he : w.reg.entries[i]? = some e) (h₀ : es[i]? = some e₀)
    (hidle : Idle e₀ e) (hlive : i ∉ w.released) :
    ∃ e', WorksOn b es i (setupCalls b i e₀) w (setupEntry b i e w).1 e' ∧ Settled b i e₀ e' := by
  obtain ⟨hsame, hptr, hinit, hing, hfail⟩ := hidle
  have hbegin := worksOn_update (f := fun e => { e with initializing := true }) h he h₀
    (Same.sound (hsame.keep rfl) (by exact hinit))
  have hcreated := hbegin.trans
    (worksOn_maybe_call (c := .create i e.suite) hbegin.tracked hbegin.entry e.create.isSome)
  obtain ⟨error, hcreate⟩ := createInstance_eq b i e (w.edit i fun e => { e with initializing := true })
  rw [← hsame.setupCalls]
  unfold setupEntry Fixture.setupCalls
  simp only [hcreate]
  generalize (if e.create.isSome then _ else w.edit i fun e => { e with initializing := true }) = w₁ at hcreated
  rw [List.nil_append] at hcreated
  cases hinst : Fixture.instanceOf b i e with
  | none =>
    have hdone := hcreated.trans (worksOn_update (f := fun e' => { e' with
        initializing := false, initialized := false, failed := true,
        error := if e.create.isSome then formatFixtureError "allocation" error
          else "fixture allocation failed: missing factory",
        instancePtr := none })
      hcreated.tracked hcreated.entry h₀ (Same.sound (hsame.keep rfl) rfl))
    rw [hsame.instanceOf] at hinst
    refine ⟨_, hdone, hsame.keep rfl, hinst.symm, ?_, rfl, rfl⟩
    rw [hinst]
    rfl
  | some p =>
    rw [hsame.instanceOf] at hinst
    obtain ⟨e', hrest, hsettled⟩ := setupCreated_spec hcreated.tracked hcreated.entry h₀ hsame
      (hsame.keep rfl) hinit (by rw [hcreated.released]; exact hlive) hinst
    exact ⟨e', hcreated.trans hrest, hsettled⟩

def callsAt (f : Nat → SharedFixtureEntry → List Call) (es : List SharedFixtureEntry) (i : Nat) : List Call :=
  match es[i]? with
  | none => []
  | some e => f i e

/-- The setup loop after `k` turns: it has settled the first `k` entries, in
their order, and not touched the others. -/
structure Progress (b : Behaviour) (es : List SharedFixtureEntry) (k : Nat) (w : World) : Prop where
  length : w.reg.entries.length = es.length
  done : ∀ i e₀, i < k → es[i]? = some e₀ → ∃ e, w.reg.entries[i]? = some e ∧ Settled b i e₀ e
  todo : ∀ i e₀, k ≤ i → es[i]? = some e₀ → ∃ e, w.reg.entries[i]? = some e ∧ Idle e₀ e
  teardownInProgress : w.reg.teardownInProgress = false
  registrationError : w.reg.registrationError = false
  released : w.released = []
  calls : w.calls = (List.range k).flatMap (callsAt (setupCalls b) es)
  tracked : Tracked b es w

theorem WorksOn.length (h : WorksOn b es i cs w w' e') (he : w.reg.entries[i]? = some e) :
    w'.reg.entries.length = w.reg.entries.length := by
  have hnone : ∀ j : Nat, w'.reg.entries[j]? = none ↔ w.reg.entries[j]? = none := by
    intro j
    by_cases hj : j = i
    · subst hj
      simp [h.entry, he]
    · rw [h.others j hj]
  simp only [List.getElem?_eq_none_iff] at hnone
  have hle := (hnone w.reg.entries.length).mpr (Nat.le_refl _)
  have hge := (hnone w'.reg.entries.length).mp (Nat.le_refl _)
  exact Nat.le_antisymm hle hge

theorem Progress.turn (h : Progress b es k w) (h₀ : es[k]? = some e₀) (he : w.reg.entries[k]? = some e)
    (hidle : Idle e₀ e) : Progress b es (k + 1) (setupEntry b k e w).1 := by
  obtain ⟨e', hwork, hsettled⟩ := setupEntry_spec h.tracked he h₀ hidle (by rw [h.released]; exact nofun)
  refine ⟨(hwork.length he).trans h.length, ?_, ?_, hwork.teardownInProgress.trans h.teardownInProgress,
    hwork.registrationError.trans h.registrationError, hwork.released.trans h.released, ?_, hwork.tracked⟩
  · intro i e₁ hi h₁
    by_cases hik : i = k
    · subst hik
      rw [h₀] at h₁
      cases h₁
      exact ⟨e', hwork.entry, hsettled⟩
    · rw [hwork.others i hik]
      exact h.done i e₁ (by omega) h₁
  · intro i e₁ hi h₁
    rw [hwork.others i (by omega)]
    exact h.todo i e₁ (by omega) h₁
  · rw [hwork.calls, h.calls, List.range_succ, List.flatMap_append, List.flatMap_singleton, callsAt, h₀]

theorem Progress.pick (h : Progress b es k w) (hk : k < es.length) :
    w.reg.entries.findIdx? (fun e => !e.settled) = some k := by
  obtain ⟨e, he, hidle⟩ := h.todo k es[k] (Nat.le_refl _) (List.getElem?_eq_getElem hk)
  obtain ⟨hlt, rfl⟩ := List.getElem?_eq_some_iff.mp he
  refine List.findIdx?_eq_some_iff_getElem.mpr ⟨hlt, by rw [hidle.not_settled]; rfl, fun j hj => ?_⟩
  obtain ⟨e', he', hsettled⟩ := h.done j es[j] hj (List.getElem?_eq_getElem (hj.trans hk))
  obtain ⟨hlt', rfl⟩ := List.getElem?_eq_some_iff.mp he'
  rw [hsettled.settled]
  exact Bool.false_ne_true

theorem Progress.pick_none (h : Progress b es es.length w) :
    w.reg.entries.findIdx? (fun e => !e.settled) = none := by
  refine List.findIdx?_eq_none_iff.mpr fun e he => ?_
  obtain ⟨i, hi, rfl⟩ := List.getElem_of_mem he
  rw [h.length] at hi
  obtain ⟨e', he', hsettled⟩ := h.done i es[i] hi (List.getElem?_eq_getElem hi)
  obtain ⟨hlt, heq⟩ := List.getElem?_eq_some_iff.mp he'
  rw [heq, hsettled.settled]
  rfl

/-- With a turn for every entry left and one to find nothing, the loop settles
every entry. -/
theorem setupLoop_settles (h : Progress b es k w) (hk : k ≤ es.length) (hfuel : es.length < k + fuel) :
    Progress b es es.length (setupLoop b fuel w ok).1 := by
  induction fuel generalizing k w ok with
  | zero => omega
  | succ fuel ih =>
    unfold setupLoop
    rw [h.teardownInProgress, if_neg Bool.false_ne_true]
    rcases Nat.lt_or_eq_of_le hk with hlt | rfl
    · obtain ⟨e, he, hidle⟩ := h.todo k es[k] (Nat.le_refl _) (List.getElem?_eq_getElem hlt)
      simp only [h.pick hlt, he]
      exact ih (h.turn (List.getElem?_eq_getElem hlt) he hidle) hlt (by omega)
    · simp only [h.pick_none]
      exact h

theorem progress_reset (reg : SharedFixtureRegistry) (hidle : reg.teardownInProgress = false)
    (herr : reg.registrationError = false) :
    Progress b reg.entries 0 (World.commit { reg } (resetSharedFixtureRunState reg)) := by
  have hreset : ∀ (i : Nat) (e₀ : SharedFixtureEntry), reg.entries[i]? = some e₀ →
      (resetSharedFixtureRunState reg).entries[i]? = some e₀.reset := by
    intro i e₀ h₀
    simp [resetSharedFixtureRunState, h₀]
  have hentry : ∀ e₀ : SharedFixtureEntry, Idle e₀ e₀.reset :=
    fun e₀ => ⟨⟨rfl, rfl, rfl, rfl, rfl, rfl⟩, rfl, rfl, rfl, rfl⟩
  refine ⟨by simp [World.commit, resetSharedFixtureRunState], nofun, ?_, hidle, herr, rfl, rfl, ?_⟩
  · intro i e₀ _ h₀
    exact ⟨e₀.reset, hreset i e₀ h₀, hentry e₀⟩
  · refine tracked_commit nofun fun i e he => ?_
    cases h₀ : reg.entries[i]? with
    | none => simp [resetSharedFixtureRunState, h₀] at he
    | some e₀ =>
      rw [hreset i e₀ h₀] at he
      cases he
      exact ⟨e₀, rfl, (hentry e₀).toSame.sound rfl⟩

/-- The owning thread's session: the gate is held by it. -/
def OwnsGate (gate : SharedFixtureRunGate) (thread : Nat) : Prop := gate.active = true ∧ gate.owner = thread

theorem setupSharedFixtures_spec (reg : SharedFixtureRegistry) (hgate : OwnsGate gate thread)
    (hidle : reg.teardownInProgress = false) (herr : reg.registrationError = false) :
    Progress b reg.entries reg.entries.length (setupSharedFixtures b gate thread { reg }).1 := by
  have hlen : (World.commit { reg } (resetSharedFixtureRunState reg)).reg.entries.length = reg.entries.length := by
    simp [World.commit, resetSharedFixtureRunState]
  unfold setupSharedFixtures
  simp only [hgate.1, hgate.2, herr, Bool.not_true, bne_self_eq_false, Bool.or_false, Bool.false_eq_true, if_false,
    hlen]
  exact setupLoop_settles (progress_reset reg hidle herr) (Nat.zero_le _) (by omega)

-- ---------------------------------------------------------------------------
-- The teardown
-- ---------------------------------------------------------------------------

def teardownCalls (b : Behaviour) (i : Nat) (e : SharedFixtureEntry) : List Call :=
  match instanceOf b i e with
  | none => []
  | some p => if e.teardown.isSome then [.teardown i p] else []

def itemOf (b : Behaviour) (i : Nat) (e : SharedFixtureEntry) : Option TeardownWorkItem :=
  (instanceOf b i e).map fun p => ⟨i, e.fixtureName, p, e.teardown⟩

def TeardownWorkItem.calls (item : TeardownWorkItem) : List Call :=
  if item.teardown.isSome then [.teardown item.index item.instancePtr] else []

theorem Settled.workItem (h : Settled b i e₀ e) : teardownWorkItem i e = itemOf b i e₀ := by
  unfold teardownWorkItem itemOf SharedFixtureEntry.unfinished
  rw [h.instancePtr]
  cases instanceOf b i e₀ with
  | none => rfl
  | some p => simp [h.failed, h.fixtureName, h.teardown]

theorem Settled.dropUnfinished_ptr (h : Settled b i e₀ e) : (dropUnfinished e).instancePtr = instanceOf b i e₀ := by
  unfold dropUnfinished
  split
  · rename_i hun
    have hnone : e.instancePtr = none := by simpa [SharedFixtureEntry.unfinished, h.failed] using hun
    rw [← h.instancePtr, hnone]
  · exact h.instancePtr

theorem Sound.dropUnfinished (h : Sound b released i e₀ e) : Sound b released i e₀ (dropUnfinished e) := by
  unfold Fixture.dropUnfinished
  split
  · exact Same.sound (h.toSame.keep rfl) rfl
  · exact h

theorem Progress.work (h : Progress b es es.length w) :
    teardownWork w.reg.entries = (List.range es.length).reverse.filterMap fun i => es[i]?.bind (itemOf b i) := by
  rw [teardownWork, h.length]
  refine List.filterMap_congr fun i hi => ?_
  have hlt : i < es.length := by simpa using hi
  obtain ⟨e, he, hsettled⟩ := h.done i es[i] hlt (List.getElem?_eq_getElem hlt)
  rw [he, List.getElem?_eq_getElem hlt]
  exact hsettled.workItem

theorem callTeardown_world (b : Behaviour) (t : Teardown) (item : TeardownWorkItem) :
    (callTeardown b t item).world =
      if item.teardown.isSome then t.world.call (.teardown item.index item.instancePtr) else t.world := by
  unfold callTeardown
  cases item.teardown with
  | none => rfl
  | some q =>
    obtain ⟨ok, error⟩ := runFixturePhase (b item.index).teardown
    cases ok <;> rfl

/-- What the teardown of some items leaves: their callbacks called in turn and
no pointer in their entries. -/
structure TearsDown (b : Behaviour) (es : List SharedFixtureEntry) (items : List TeardownWorkItem) (w w' : World) :
    Prop where
  calls : w'.calls = w.calls ++ items.flatMap TeardownWorkItem.calls
  past : w.moments ⊆ w'.moments
  tracked : Tracked b es w'
  freed : ∀ (i : Nat) e, w'.reg.entries[i]? = some e → e.instancePtr = none ∨
    (∃ e', w.reg.entries[i]? = some e' ∧ e'.instancePtr = e.instancePtr) ∧ ∀ item ∈ items, item.index ≠ i

theorem teardownItem_spec (b : Behaviour) (t : Teardown) (item : TeardownWorkItem) (h : Tracked b es t.world) :
    TearsDown b es [item] t.world (teardownItem b t item).world := by
  obtain ⟨hreg, hreleased, hmoments, hcalls⟩ : (callTeardown b t item).world.reg = t.world.reg ∧
      (callTeardown b t item).world.released = t.world.released ∧
      (callTeardown b t item).world.moments = t.world.moments ∧
      (callTeardown b t item).world.calls = t.world.calls ++ item.calls := by
    rw [callTeardown_world, TeardownWorkItem.calls]
    cases item.teardown.isSome
    · exact ⟨rfl, rfl, rfl, (List.append_nil _).symm⟩
    · exact ⟨rfl, rfl, rfl, rfl⟩
  have hself : ∀ e, ((callTeardown b t item).world.reg.update item.index fun e =>
      { e with instancePtr := none, initialized := false, initializing := false }).entries[item.index]? = some e →
      ∃ e', t.world.reg.entries[item.index]? = some e' ∧
        e = { e' with instancePtr := none, initialized := false, initializing := false } := by
    intro e he
    rw [hreg] at he
    cases h' : t.world.reg.entries[item.index]? with
    | none => simp [SharedFixtureRegistry.update, h'] at he
    | some e' =>
      rw [SharedFixtureRegistry.update_self _ h'] at he
      cases he
      exact ⟨e', rfl, rfl⟩
  refine ⟨by simpa [teardownItem, World.edit, World.commit] using hcalls, ?_, ?_, ?_⟩
  · rw [← hmoments]
    exact List.subset_append_left _ _
  · refine tracked_commit (by simpa only [hmoments] using h.sound) fun j e he => ?_
    by_cases hj : j = item.index
    · subst hj
      obtain ⟨e', h', rfl⟩ := hself e he
      obtain ⟨e₀, h₀, hsound⟩ := h.now _ e' h'
      exact ⟨e₀, h₀, Same.sound (hsound.toSame.keep rfl) rfl⟩
    · simp only [SharedFixtureRegistry.update_other _ hj, hreg] at he
      obtain ⟨e₀, h₀, hsound⟩ := h.now j e he
      refine ⟨e₀, h₀, hsound.toSame, hsound.held, hsound.passed, fun hinit => ?_⟩
      simp only [hreleased]
      exact List.not_mem_cons_of_ne_of_not_mem hj (hsound.live hinit)
  · intro j e he
    by_cases hj : j = item.index
    · subst hj
      obtain ⟨e', h', rfl⟩ := hself e he
      exact .inl rfl
    · have hother : t.world.reg.entries[j]? = some e := by
        rw [← hreg, ← he]
        exact (SharedFixtureRegistry.update_other _ hj).symm
      exact .inr ⟨⟨e, hother, rfl⟩, by simpa using Ne.symm hj⟩

theorem teardownItems_spec (b : Behaviour) (items : List TeardownWorkItem) (t : Teardown)
    (h : Tracked b es t.world) : TearsDown b es items t.world (items.foldl (teardownItem b) t).world := by
  induction items generalizing t with
  | nil => exact ⟨(List.append_nil _).symm, fun _ hm => hm, h, fun i e he => .inr ⟨⟨e, he, rfl⟩, nofun⟩⟩
  | cons item items ih =>
    have hfirst := teardownItem_spec b t item h
    have hrest := ih (teardownItem b t item) hfirst.tracked
    refine ⟨?_, fun m hm => hrest.past (hfirst.past hm), hrest.tracked, fun i e he => ?_⟩
    · simpa [List.foldl_cons, hfirst.calls] using hrest.calls
    · rcases hrest.freed i e he with hnone | ⟨⟨e', he', hptr⟩, hitems⟩
      · exact .inl hnone
      · rcases hfirst.freed i e' he' with hnone | ⟨⟨e'', he'', hptr'⟩, hitem⟩
        · exact .inl (hptr.symm.trans hnone)
        · exact .inr ⟨⟨e'', he'', hptr'.trans hptr⟩, List.forall_mem_cons.mpr ⟨hitem item (by simp), hitems⟩⟩

-- ---------------------------------------------------------------------------
-- The run
-- ---------------------------------------------------------------------------

theorem Tracked.commit_flag (flag : Bool) (h : Tracked b es w) : Tracked b es (w.commit { w.reg with teardownInProgress := flag }) :=
  tracked_commit h.sound h.now

theorem Tracked.commit_drop (h : Tracked b es w) :
    Tracked b es (w.commit { w.reg with entries := w.reg.entries.map dropUnfinished }) := by
  refine tracked_commit h.sound fun i e he => ?_
  simp only [List.getElem?_map, Option.map_eq_some_iff] at he
  obtain ⟨e', he', rfl⟩ := he
  obtain ⟨e₀, h₀, hsound⟩ := h.now i e' he'
  exact ⟨e₀, h₀, hsound.dropUnfinished⟩

theorem flatMap_workCalls (l : List Nat) :
    (l.filterMap fun i => es[i]?.bind (itemOf b i)).flatMap TeardownWorkItem.calls =
      l.flatMap (callsAt (teardownCalls b) es) := by
  rw [List.filterMap_eq_flatMap_toList, List.flatMap_assoc]
  refine List.flatMap_congr fun i _ => ?_
  cases h₀ : es[i]? with
  | none => simp [callsAt, h₀]
  | some e₀ => cases hinst : instanceOf b i e₀ <;>
      simp [callsAt, h₀, itemOf, teardownCalls, hinst, TeardownWorkItem.calls]

/-- What a whole run on the owning thread does. -/
structure RunSpec (b : Behaviour) (reg : SharedFixtureRegistry) (w : World) : Prop where
  calls : w.calls = (List.range reg.entries.length).flatMap (callsAt (setupCalls b) reg.entries) ++
    (List.range reg.entries.length).reverse.flatMap (callsAt (teardownCalls b) reg.entries)
  sound : ∀ m ∈ w.moments, m.Sound b reg.entries
  freed : ∀ e ∈ w.reg.entries, e.instancePtr = none
  /-- the moment between setup and teardown -/
  between : ∃ m ∈ w.moments, m.reg.registrationError = false ∧
    m.reg.entries.length = reg.entries.length ∧
    ∀ (i : Nat) e₀, reg.entries[i]? = some e₀ → ∃ e, m.reg.entries[i]? = some e ∧ Settled b i e₀ e

theorem fixtureRun_spec (b : Behaviour) (reg : SharedFixtureRegistry) (hgate : OwnsGate gate thread)
    (hidle : reg.teardownInProgress = false) (herr : reg.registrationError = false) :
    RunSpec b reg (fixtureRun b gate thread reg) := by
  have hsetup := setupSharedFixtures_spec (b := b) reg hgate hidle herr
  unfold fixtureRun teardownSharedFixtures
  simp only [hgate.1, hgate.2, Bool.not_true, bne_self_eq_false, Bool.or_false, Bool.false_eq_true, if_false]
  generalize (setupSharedFixtures b gate thread { reg }).1 = w at hsetup
  have hwork := hsetup.work
  have hdrop := (hsetup.tracked.commit_flag true).commit_drop
  have hitems := teardownItems_spec b (teardownWork w.reg.entries)
    { world := (w.commit { w.reg with teardownInProgress := true }).commit
        { w.reg with teardownInProgress := true, entries := w.reg.entries.map dropUnfinished } } hdrop
  have hend := hitems.tracked.commit_flag false
  refine ⟨?_, hend.sound, ?_, ?_⟩
  · refine Eq.trans hitems.calls ?_
    rw [hwork, flatMap_workCalls]
    exact congrArg (· ++ _) hsetup.calls
  · intro e he
    obtain ⟨i, hi, rfl⟩ := List.getElem_of_mem he
    rcases hitems.freed i _ (List.getElem?_eq_getElem hi) with hnone | ⟨⟨e', he', hptr⟩, hnot⟩
    · exact hnone
    · rw [← hptr]
      simp only [World.commit, List.getElem?_map, Option.map_eq_some_iff] at he'
      obtain ⟨e'', he'', rfl⟩ := he'
      have hlt : i < reg.entries.length := by
        rw [← hsetup.length]
        exact (List.getElem?_eq_some_iff.mp he'').1
      obtain ⟨e₁, he₁, hsettled⟩ := hsetup.done i reg.entries[i] hlt (List.getElem?_eq_getElem hlt)
      rw [he''] at he₁
      cases he₁
      rw [hsettled.dropUnfinished_ptr]
      -- an entry that holds a pointer is in the work
      cases hinst : instanceOf b i reg.entries[i] with
      | none => rfl
      | some p =>
        refine absurd rfl (hnot ⟨i, reg.entries[i].fixtureName, p, reg.entries[i].teardown⟩ ?_)
        rw [hwork, List.mem_filterMap]
        refine ⟨i, by simpa using hlt, ?_⟩
        simp [List.getElem?_eq_getElem hlt, itemOf, hinst]
  · refine ⟨w.moment, ?_, hsetup.registrationError, hsetup.length, ?_⟩
    · refine List.mem_append_left _ (hitems.past ?_)
      exact List.mem_append_left _ (List.mem_append_left _ hsetup.tracked.seen)
    · intro i e₀ h₀
      exact hsetup.done i e₀ (List.getElem?_eq_some_iff.mp h₀).1 h₀

end Gentest.Fixture
