import Gentest.Fixture.SetupTeardown

/-!
# Setup and teardown are paired

`Paired` says what a run owes its fixtures: the teardown of exactly the ones
that were created, in reverse order and independent of each other, and lookups
that only ever see a fixture whose factory and setup succeeded. The code takes
a callback for successful when it finds no text, so a failure without one slips
through; `fixture_run_paired_iff` says exactly which.
-/

namespace Gentest.Fixture

-- ---------------------------------------------------------------------------
-- Lookup
-- ---------------------------------------------------------------------------

theorem selectFrom_some (h : selectFrom scope suite name es k selected = some (i, e)) :
    selected = some (i, e) ∨ k ≤ i ∧ es[i - k]? = some e := by
  induction es generalizing k selected with
  | nil => exact .inl h
  | cons e' rest ih =>
    unfold selectFrom at h
    split at h
    · rcases ih h with hsel | ⟨hle, hget⟩
      · cases hsel
        exact .inr ⟨Nat.le_refl _, by simp⟩
      · refine .inr ⟨by omega, ?_⟩
        rw [show i - k = (i - (k + 1)) + 1 by omega, List.getElem?_cons_succ]
        exact hget
    · rcases ih h with hsel | ⟨hle, hget⟩
      · exact .inl hsel
      · refine .inr ⟨by omega, ?_⟩
        rw [show i - k = (i - (k + 1)) + 1 by omega, List.getElem?_cons_succ]
        exact hget

theorem select_mem (h : selectSharedFixture reg scope suite name = some (i, e)) : reg.entries[i]? = some e := by
  rcases selectFrom_some h with hsel | ⟨-, hget⟩
  · cases hsel
  · exact hget

theorem selectFrom_kept (h : ∀ e ∈ es, SharedFixtureEntry.serves e scope suite name = true →
      e.suite.utf8ByteSize ≤ s.2.suite.utf8ByteSize) :
    selectFrom scope suite name es k (some s) = some s := by
  induction es generalizing k with
  | nil => rfl
  | cons e rest ih =>
    have hrest := ih (k := k + 1) fun e he => h e (List.mem_cons_of_mem _ he)
    unfold selectFrom
    split
    · rename_i hbetter
      rw [Bool.and_eq_true] at hbetter
      have hle := h e (List.mem_cons_self ..) hbetter.1
      simp only [Option.all_some, decide_eq_true_eq] at hbetter
      omega
    · exact hrest

theorem selectFrom_longest (scope : SharedFixtureScope) (suite name : String) (k : Nat)
    (selected : Option (Nat × SharedFixtureEntry)) {i : Nat}
    (hget : es[i]? = some e) (hserves : e.serves scope suite name = true)
    (hother : ∀ (j : Nat) e', es[j]? = some e' → j ≠ i → e'.serves scope suite name = true →
      e'.suite.utf8ByteSize < e.suite.utf8ByteSize)
    (hselected : ∀ s ∈ selected, s.2.suite.utf8ByteSize < e.suite.utf8ByteSize) :
    selectFrom scope suite name es k selected = some (k + i, e) := by
  induction es generalizing i k selected with
  | nil => simp at hget
  | cons e' rest ih =>
    unfold selectFrom
    cases i with
    | zero =>
      cases hget
      have hbetter : selected.all (fun s => e.suite.utf8ByteSize > s.2.suite.utf8ByteSize) = true := by
        cases selected with
        | none => rfl
        | some s => simpa using hselected s rfl
      rw [hserves, hbetter, Bool.and_self, if_pos rfl]
      refine selectFrom_kept fun e' he' hserves' => ?_
      obtain ⟨j, hj, rfl⟩ := List.getElem_of_mem he'
      exact Nat.le_of_lt (hother (j + 1) _ (by simp [hj]) (by omega) hserves')
    | succ i =>
      have hother' : ∀ (j : Nat) e', rest[j]? = some e' → j ≠ i → e'.serves scope suite name = true →
          e'.suite.utf8ByteSize < e.suite.utf8ByteSize :=
        fun j e' hj hne => hother (j + 1) e' (by simpa using hj) (by omega)
      rw [show k + (i + 1) = k + 1 + i by omega]
      split
      · rename_i hbetter
        rw [Bool.and_eq_true] at hbetter
        refine ih _ _ (by simpa using hget) hother' ?_
        rintro s hs
        cases hs
        exact hother 0 e' rfl (by omega) hbetter.1
      · exact ih _ _ (by simpa using hget) hother' hselected

theorem suiteScopeMatches_self : suiteScopeMatches suite suite = true := by
  unfold suiteScopeMatches
  split <;> simp

theorem suiteScopeMatches_shorter (h : suiteScopeMatches fixtureSuite suite = true) (hne : fixtureSuite ≠ suite) :
    fixtureSuite.utf8ByteSize < suite.utf8ByteSize := by
  unfold suiteScopeMatches at h
  split at h
  · rename_i hempty
    subst hempty
    exact Nat.pos_of_ne_zero fun hzero => hne (String.utf8ByteSize_eq_zero_iff.mp hzero).symm
  · split at h
    · rename_i heq
      exact absurd heq.symm hne
    · split at h
      · cases h
      · rename_i hsize
        push Not at hsize
        exact hsize.1

/-- In a strictly sorted registry an entry is found under its own name, scope
and suite. -/
theorem select_own {i : Nat} (hsorted : SortedEntries es) (h₀ : es[i]? = some e₀)
    (hsame : ∀ (j : Nat) e, reg.entries[j]? = some e → ∃ e₁, es[j]? = some e₁ ∧ Same e₁ e)
    (he : reg.entries[i]? = some e) :
    selectSharedFixture reg e₀.scope e₀.suite e₀.fixtureName = some (i, e) := by
  obtain ⟨e₁, h₁, hsame₁⟩ := hsame i e he
  rw [h₀] at h₁
  cases h₁
  have hpick := selectFrom_longest e₀.scope e₀.suite e₀.fixtureName 0 none he
    (by simp [SharedFixtureEntry.serves, hsame₁.scope, hsame₁.fixtureName, hsame₁.suite, suiteScopeMatches_self])
    ?_ nofun
  · rw [Nat.zero_add] at hpick
    exact hpick
  · intro j e' he' hne hserves
    obtain ⟨e₂, h₂, hsame₂⟩ := hsame j e' he'
    simp only [SharedFixtureEntry.serves, Bool.and_eq_true, beq_iff_eq] at hserves
    obtain ⟨⟨hscope, hname⟩, hmatch⟩ := hserves
    rw [hsame₁.suite]
    refine suiteScopeMatches_shorter hmatch fun hsuite => hne ?_
    -- equal name, scope and suite are one entry
    refine hsorted.index_eq h₂ h₀ (orderKey_eq_iff.mpr ⟨?_, ?_, ?_⟩)
    · rw [← hsame₂.fixtureName, hname]
    · rw [← hsame₂.scope, hscope]
    · rw [← hsame₂.suite, hsuite]

theorem getSharedFixture_some (h : (getSharedFixture reg scope suite name).1 = some p) :
    ∃ i e, selectSharedFixture reg scope suite name = some (i, e) ∧ e.initialized = true ∧
      e.instancePtr = some p := by
  unfold getSharedFixture at h
  split at h
  · cases h
  · split at h
    · cases h
    · rename_i i e hsel
      split at h
      · cases h
      · split at h
        · cases h
        · split at h
          · cases h
          · rename_i hinit
            refine ⟨i, e, hsel, by simpa using hinit, ?_⟩
            cases hptr : e.instancePtr with
            | none => simp [hptr] at h
            | some q => simpa [hptr] using h

theorem getSharedFixture_of_up (hreg : reg.registrationError = false)
    (hsel : selectSharedFixture reg scope suite name = some (i, e)) (hfailed : e.failed = false)
    (hing : e.initializing = false) (hinit : e.initialized = true) (hptr : e.instancePtr = some p) :
    (getSharedFixture reg scope suite name).1 = some p := by
  simp [getSharedFixture, hreg, hsel, hfailed, hing, hinit, hptr]

-- ---------------------------------------------------------------------------
-- Paired runs
-- ---------------------------------------------------------------------------

/-- The factory produced an instance and reported no error. -/
def CreateOk (b : Behaviour) (i : Nat) (e : SharedFixtureEntry) : Prop :=
  e.create.isSome ∧ (b i).create.Succeeded ∧ (b i).create.result.isSome

/-- The setup, if there is one, succeeded. -/
def SetupOk (b : Behaviour) (i : Nat) (e : SharedFixtureEntry) : Prop :=
  e.setup.isSome → (b i).setup.Succeeded

def World.creates (w : World) : List Nat := w.calls.filterMap Call.createIndex?

def World.teardowns (w : World) : List Nat := w.calls.filterMap Call.teardownIndex?

/-- What a run owes the fixtures of the registry. -/
structure Paired (b : Behaviour) (gate : SharedFixtureRunGate) (thread : Nat) (reg : SharedFixtureRegistry) :
    Prop where
  /-- a fixture's teardown is called once if its factory succeeded, else never -/
  once : ∀ (i : Nat) e, reg.entries[i]? = some e → e.teardown.isSome →
    (CreateOk b i e → (fixtureRun b gate thread reg).teardowns.count i = 1) ∧
      (¬CreateOk b i e → i ∉ (fixtureRun b gate thread reg).teardowns)
  /-- teardowns come in the reverse order of the factories -/
  reversed : (fixtureRun b gate thread reg).teardowns =
    ((fixtureRun b gate thread reg).creates.filter (· ∈ (fixtureRun b gate thread reg).teardowns)).reverse
  /-- the callbacks of a fixture have no influence on the calls of the others -/
  isolated : ∀ (j : Nat) (b' : Behaviour), (∀ i, i ≠ j → b' i = b i) →
    (fixtureRun b' gate thread reg).calls.filter (·.index ≠ j) =
      (fixtureRun b gate thread reg).calls.filter (·.index ≠ j)
  freed : ∀ e ∈ (fixtureRun b gate thread reg).reg.entries, e.instancePtr = none
  /-- a lookup returns the pointer of a fixture that is up, at every moment -/
  lookup : ∀ m ∈ (fixtureRun b gate thread reg).moments, ∀ scope suite name p,
    (getSharedFixture m.reg scope suite name).1 = some p →
      ∃ i e, (selectSharedFixture m.reg scope suite name).map Prod.fst = some i ∧ reg.entries[i]? = some e ∧
        CreateOk b i e ∧ (b i).create.result = some p ∧ SetupOk b i e ∧ i ∉ m.released

-- ---------------------------------------------------------------------------
-- The calls of a run
-- ---------------------------------------------------------------------------

def tearsDown (b : Behaviour) (es : List SharedFixtureEntry) (i : Nat) : Bool :=
  es[i]?.any fun e => (instanceOf b i e).isSome && e.teardown.isSome

def hasFactory (es : List SharedFixtureEntry) (i : Nat) : Bool := es[i]?.any fun e => e.create.isSome

theorem hasFactory_of_tearsDown (h : tearsDown b es i = true) : hasFactory es i = true := by
  unfold tearsDown at h
  unfold hasFactory
  cases h₀ : es[i]? with
  | none => simp [h₀] at h
  | some e =>
    cases hcreate : e.create with
    | none => simp [h₀, instanceOf, hcreate] at h
    | some p => simp [hcreate]

theorem flatMap_eq_filter (l : List Nat) (p : Nat → Bool) (f : Nat → List Nat)
    (hf : ∀ i, f i = if p i then [i] else []) : l.flatMap f = l.filter p := by
  induction l with
  | nil => rfl
  | cons i l ih =>
    rw [List.flatMap_cons, hf, ih]
    by_cases hp : p i = true <;> simp [hp]

theorem setupCalls_creates (b : Behaviour) (es : List SharedFixtureEntry) (i : Nat) :
    (callsAt (setupCalls b) es i).filterMap Call.createIndex? = if hasFactory es i then [i] else [] := by
  unfold callsAt hasFactory
  cases h₀ : es[i]? with
  | none => rfl
  | some e =>
    cases hinst : instanceOf b i e <;> cases hcreate : e.create <;> cases hsetup : e.setup <;>
      simp [setupCalls, hinst, hcreate, hsetup, Call.createIndex?]

theorem setupCalls_teardowns (b : Behaviour) (es : List SharedFixtureEntry) (i : Nat) :
    (callsAt (setupCalls b) es i).filterMap Call.teardownIndex? = [] := by
  unfold callsAt
  cases h₀ : es[i]? with
  | none => rfl
  | some e =>
    cases hinst : instanceOf b i e <;> cases hcreate : e.create <;> cases hsetup : e.setup <;>
      simp [setupCalls, hinst, hcreate, hsetup, Call.teardownIndex?]

theorem teardownCalls_creates (b : Behaviour) (es : List SharedFixtureEntry) (i : Nat) :
    (callsAt (teardownCalls b) es i).filterMap Call.createIndex? = [] := by
  unfold callsAt
  cases h₀ : es[i]? with
  | none => rfl
  | some e =>
    cases hinst : instanceOf b i e <;> cases hdown : e.teardown <;>
      simp [teardownCalls, hinst, hdown, Call.createIndex?]

theorem teardownCalls_teardowns (b : Behaviour) (es : List SharedFixtureEntry) (i : Nat) :
    (callsAt (teardownCalls b) es i).filterMap Call.teardownIndex? = if tearsDown b es i then [i] else [] := by
  unfold callsAt tearsDown
  cases h₀ : es[i]? with
  | none => rfl
  | some e =>
    cases hinst : instanceOf b i e <;> cases hdown : e.teardown <;>
      simp [teardownCalls, hinst, hdown, Call.teardownIndex?]

theorem RunSpec.creates (h : RunSpec b reg w) :
    w.creates = (List.range reg.entries.length).filter (hasFactory reg.entries) := by
  rw [World.creates, h.calls, List.filterMap_append, List.filterMap_flatMap, List.filterMap_flatMap]
  simp only [teardownCalls_creates]
  rw [flatMap_eq_filter _ _ _ (setupCalls_creates b reg.entries)]
  simp

theorem RunSpec.teardowns (h : RunSpec b reg w) :
    w.teardowns = ((List.range reg.entries.length).filter (tearsDown b reg.entries)).reverse := by
  rw [World.teardowns, h.calls, List.filterMap_append, List.filterMap_flatMap, List.filterMap_flatMap]
  simp only [setupCalls_teardowns]
  rw [flatMap_eq_filter _ _ _ (teardownCalls_teardowns b reg.entries), ← List.filter_reverse]
  simp

theorem RunSpec.mem_teardowns (h : RunSpec b reg w) : i ∈ w.teardowns ↔ tearsDown b reg.entries i = true := by
  rw [h.teardowns, List.mem_reverse, List.mem_filter, List.mem_range, and_iff_right_iff_imp]
  intro htears
  by_contra hlt
  rw [tearsDown, List.getElem?_eq_none (by omega)] at htears
  cases htears

theorem RunSpec.count_teardowns (h : RunSpec b reg w) (hi : tearsDown b reg.entries i = true) :
    w.teardowns.count i = 1 := by
  have hnodup : w.teardowns.Nodup := by
    rw [h.teardowns, List.nodup_reverse]
    exact List.nodup_range.filter _
  exact List.count_eq_one_of_mem hnodup (h.mem_teardowns.mpr hi)

theorem RunSpec.reversed (h : RunSpec b reg w) :
    w.teardowns = (w.creates.filter (· ∈ w.teardowns)).reverse := by
  simp only [h.mem_teardowns]
  rw [h.teardowns, h.creates, List.filter_filter]
  congr 1
  refine List.filter_congr fun i _ => ?_
  rw [Bool.eq_iff_iff]
  simpa using hasFactory_of_tearsDown

theorem setupCalls_index (hc : c ∈ setupCalls b i e) : c.index = i := by
  unfold setupCalls at hc
  rcases List.mem_append.mp hc with hc | hc
  · split at hc
    · rw [List.mem_singleton.mp hc]
      rfl
    · cases hc
  · split at hc
    · cases hc
    · split at hc
      · rw [List.mem_singleton.mp hc]
        rfl
      · cases hc

theorem teardownCalls_index (hc : c ∈ teardownCalls b i e) : c.index = i := by
  unfold teardownCalls at hc
  split at hc
  · cases hc
  · split at hc
    · rw [List.mem_singleton.mp hc]
      rfl
    · cases hc

/-- Without the calls of entry `j`, the calls along some entries do not depend
on the callbacks of `j`. -/
theorem filter_calls_congr {f f' : Nat → SharedFixtureEntry → List Call} (l : List Nat) {j : Nat}
    (hindex : ∀ i e, ∀ c ∈ f i e ++ f' i e, c.index = i) (hsame : ∀ i e, i ≠ j → f' i e = f i e) :
    (l.flatMap (callsAt f' es)).filter (·.index ≠ j) = (l.flatMap (callsAt f es)).filter (·.index ≠ j) := by
  rw [List.filter_flatMap, List.filter_flatMap]
  refine List.flatMap_congr fun i _ => ?_
  unfold callsAt
  cases es[i]? with
  | none => rfl
  | some e =>
    by_cases hi : i = j
    · subst hi
      have hnone : ∀ c ∈ f i e ++ f' i e, ¬decide (c.index ≠ i) = true := by
        intro c hc
        simp [hindex i e c hc]
      rw [List.filter_eq_nil_iff.mpr fun c hc => hnone c (List.mem_append_right _ hc),
        List.filter_eq_nil_iff.mpr fun c hc => hnone c (List.mem_append_left _ hc)]
    · simp only [hsame i e hi]

theorem RunSpec.isolated (h : RunSpec b reg w) (h' : RunSpec b' reg w') (hsame : ∀ i, i ≠ j → b' i = b i) :
    w'.calls.filter (·.index ≠ j) = w.calls.filter (·.index ≠ j) := by
  have hinst : ∀ i e, i ≠ j → instanceOf b' i e = instanceOf b i e := by
    intro i e hi
    simp only [instanceOf, hsame i hi]
  rw [h.calls, h'.calls, List.filter_append, List.filter_append]
  congr 1
  · refine filter_calls_congr _ (fun i e c hc => ?_) fun i e hi => by simp only [setupCalls, hinst i e hi]
    exact (List.mem_append.mp hc).elim setupCalls_index setupCalls_index
  · refine filter_calls_congr _ (fun i e c hc => ?_) fun i e hi => by simp only [teardownCalls, hinst i e hi]
    exact (List.mem_append.mp hc).elim teardownCalls_index teardownCalls_index

-- ---------------------------------------------------------------------------
-- When a run is paired
-- ---------------------------------------------------------------------------

def SetupReports (b : Behaviour) (i : Nat) (e : SharedFixtureEntry) : Prop :=
  e.setup.isSome ∧ ¬(b i).setup.Succeeded ∧ ¬(b i).setup.FailsSilently

/-- No setup of a created fixture fails without a text, and no factory that
returns an instance does; the latter goes unnoticed where the entry has no
teardown callback and its setup fails with a text. -/
def NoSilentFailure (b : Behaviour) (es : List SharedFixtureEntry) : Prop :=
  ∀ (i : Nat) e, es[i]? = some e → e.create.isSome → (b i).create.returned.isSome →
    ((b i).create.Succeeded → e.setup.isSome → ¬(b i).setup.FailsSilently) ∧
      ((b i).create.FailsSilently → e.teardown = none ∧ SetupReports b i e)

theorem CreateRun.returned_of_succeeded {r : CreateRun} (h : r.Succeeded) : r.returned = r.result := by
  rw [returned, h.returns]

theorem CreateOk.instanceOf (h : CreateOk b i e) : instanceOf b i e = (b i).create.result := by
  obtain ⟨hcreate, hsucc, -⟩ := h
  rw [Fixture.instanceOf, if_pos ⟨hcreate, (CallbackRun.issue_eq_empty _).mpr (.inl hsucc)⟩,
    CreateRun.returned_of_succeeded hsucc]

/-- The code stores a pointer for the fixtures whose factory succeeded or
failed without a text. -/
theorem instanceOf_some (h : instanceOf b i e = some p) : e.create.isSome ∧ (b i).create.returned = some p ∧
    ((b i).create.Succeeded ∨ (b i).create.FailsSilently) := by
  unfold Fixture.instanceOf at h
  split at h
  · rename_i hboth
    exact ⟨hboth.1, h, (CallbackRun.issue_eq_empty _).mp hboth.2⟩
  · cases h

theorem setupPasses_iff : setupPasses b i e = true ↔ ¬SetupReports b i e := by
  unfold setupPasses SetupReports
  cases e.setup with
  | none => simp
  | some q => simp [CallbackRun.issue_eq_empty, ← or_iff_not_imp_left]

theorem setupOk_of_passes (h : setupPasses b i e = true) (hsilent : e.setup.isSome → ¬(b i).setup.FailsSilently) :
    SetupOk b i e := by
  intro hsome
  by_contra hfail
  exact setupPasses_iff.mp h ⟨hsome, hfail, hsilent hsome⟩

theorem CallbackRun.FailsSilently.not_succeeded {r : CallbackRun} (h : r.FailsSilently) : ¬r.Succeeded := by
  intro hsucc
  rcases h.failed with ⟨-, -, hfail⟩ | hexit
  · exact hfail hsucc.failures
  · rw [hsucc.returns] at hexit
    cases hexit

/-- A fixture the code takes for set up is found between setup and teardown,
so a paired run has really set it up. -/
theorem Paired.up (hp : Paired b gate thread reg) (h : RunSpec b reg (fixtureRun b gate thread reg))
    (hsorted : SortedEntries reg.entries) (h₀ : reg.entries[i]? = some e₀) (hinst : instanceOf b i e₀ = some p)
    (hpass : setupPasses b i e₀ = true) : CreateOk b i e₀ ∧ SetupOk b i e₀ := by
  obtain ⟨m, hm, hreg, hlen, hsettled⟩ := h.between
  obtain ⟨e, he, hup⟩ := hsettled i e₀ h₀
  have hinit : e.initialized = true := by rw [hup.initialized, hinst, hpass]; rfl
  have hsel : selectSharedFixture m.reg e₀.scope e₀.suite e₀.fixtureName = some (i, e) := by
    refine select_own hsorted h₀ (fun j e' he' => ?_) he
    obtain ⟨e₁, h₁, hsound⟩ := h.sound m hm j e' he'
    exact ⟨e₁, h₁, hsound.toSame⟩
  have hget := getSharedFixture_of_up hreg hsel (by rw [hup.failed, hinit]; rfl) hup.initializing hinit
    (hup.instancePtr.trans hinst)
  obtain ⟨j, e₁, hj, h₁, hcreate, -, hsetup, -⟩ := hp.lookup m hm _ _ _ _ hget
  rw [hsel] at hj
  cases hj
  rw [h₀] at h₁
  cases h₁
  exact ⟨hcreate, hsetup⟩

theorem Paired.noSilentFailure (hp : Paired b gate thread reg) (h : RunSpec b reg (fixtureRun b gate thread reg))
    (hsorted : SortedEntries reg.entries) : NoSilentFailure b reg.entries := by
  intro i e h₀ hcreate hreturned
  obtain ⟨p, hp'⟩ := Option.isSome_iff_exists.mp hreturned
  have hinst : ∀ h : (b i).create.Succeeded ∨ (b i).create.FailsSilently, instanceOf b i e = some p := by
    intro h
    rw [instanceOf, if_pos ⟨hcreate, (CallbackRun.issue_eq_empty _).mpr h⟩, hp']
  refine ⟨fun hsucc hsetup hsilent => ?_, fun hsilent => ⟨?_, ?_⟩⟩
  · have hpass : setupPasses b i e = true := setupPasses_iff.mpr fun hrep => hrep.2.2 hsilent
    exact hsilent.not_succeeded ((hp.up h hsorted h₀ (hinst (.inl hsucc)) hpass).2 hsetup)
  · cases hdown : e.teardown with
    | none => rfl
    | some q =>
      have hnot := (hp.once i e h₀ (by rw [hdown]; rfl)).2 fun hok => hsilent.not_succeeded hok.2.1
      refine absurd (h.mem_teardowns.mpr ?_) hnot
      simp [tearsDown, h₀, hinst (.inr hsilent), hdown]
  · by_contra hrep
    have hok := (hp.up h hsorted h₀ (hinst (.inr hsilent)) (setupPasses_iff.mpr hrep)).1
    exact hsilent.not_succeeded hok.2.1

/-- Shared fixture setup and teardown are paired in a run on the owning thread
exactly when no factory or setup fails without leaving a text. -/
theorem fixture_run_paired_iff (b : Behaviour) (gate : SharedFixtureRunGate) (thread : Nat)
    (reg : SharedFixtureRegistry) (hgate : OwnsGate gate thread) (hsorted : SortedEntries reg.entries)
    (herr : reg.registrationError = false) (hidle : reg.teardownInProgress = false) :
    Paired b gate thread reg ↔ NoSilentFailure b reg.entries := by
  have h : ∀ b, RunSpec b reg (fixtureRun b gate thread reg) := fun b => fixtureRun_spec b reg hgate hidle herr
  refine ⟨fun hp => hp.noSilentFailure (h b) hsorted, fun hno => ?_⟩
  refine ⟨fun i e h₀ hdown => ⟨fun hok => ?_, fun hnot hmem => ?_⟩, (h b).reversed,
    fun j b' hsame => (h b).isolated (h b') hsame, (h b).freed, ?_⟩
  · refine (h b).count_teardowns ?_
    simp [tearsDown, h₀, hdown, hok.instanceOf, hok.2.2]
  · rw [(h b).mem_teardowns] at hmem
    simp only [tearsDown, h₀, Option.any_some, Bool.and_eq_true] at hmem
    obtain ⟨p, hinst⟩ := Option.isSome_iff_exists.mp hmem.1
    obtain ⟨hcreate, hreturned, hsucc | hsilent⟩ := instanceOf_some hinst
    · exact hnot ⟨hcreate, hsucc, by rw [← CreateRun.returned_of_succeeded hsucc, hreturned]; rfl⟩
    · rw [((hno i e h₀ hcreate (by rw [hreturned]; rfl)).2 hsilent).1] at hdown
      cases hdown
  · intro m hm scope suite name p hget
    obtain ⟨i, e, hsel, hinit, hptr⟩ := getSharedFixture_some hget
    obtain ⟨e₀, h₀, hsound⟩ := (h b).sound m hm i e (select_mem hsel)
    have hinst : instanceOf b i e₀ = some p := (hsound.held hinit).1.symm.trans hptr
    obtain ⟨hcreate, hreturned, hend⟩ := instanceOf_some hinst
    obtain ⟨hsetup, hcreated⟩ := hno i e₀ h₀ hcreate (by rw [hreturned]; rfl)
    have hsucc : (b i).create.Succeeded := by
      rcases hend with hsucc | hsilent
      · exact hsucc
      · exact absurd (hcreated hsilent).2 (setupPasses_iff.mp (hsound.passed hinit))
    rw [CreateRun.returned_of_succeeded hsucc] at hreturned
    exact ⟨i, e₀, by rw [hsel]; rfl, h₀, ⟨hcreate, hsucc, by rw [hreturned]; rfl⟩, hreturned,
      setupOk_of_passes (hsound.passed hinit) (hsetup hsucc), hsound.live hinit⟩

def oneFixture : SharedFixtureRegistry :=
  { entries := [{ fixtureName := "db", suite := "", scope := .global, create := some 1, setup := some 2,
                  teardown := some 3 }] }

theorem oneFixture_sorted : SortedEntries oneFixture.entries := List.pairwise_singleton _ _

theorem fixture_run_paired_for_db :
    Paired (fun _ => { create := { result := some 7 } }) ⟨true, 5⟩ 5 oneFixture := by
  refine (fixture_run_paired_iff _ _ _ _ ⟨rfl, rfl⟩ oneFixture_sorted rfl rfl).mpr ?_
  intro i e _ _ _
  refine ⟨fun _ _ hsilent => ?_, fun hsilent => ?_⟩
  · exact hsilent.not_succeeded ⟨rfl, rfl, rfl, rfl, rfl⟩
  · exact absurd (⟨rfl, rfl, rfl, rfl, rfl⟩ : CallbackRun.Succeeded _) hsilent.not_succeeded

/-- A setup that throws `gentest::assertion` with no message is taken for a
success, and the fixture is handed out. -/
theorem silent_setup_handed_out :
    ¬Paired (fun _ => { create := { result := some 7 }, setup := { exit := .assertion "" } }) ⟨true, 5⟩ 5
      oneFixture := by
  intro hp
  have hget := hp.lookup (fixtureRun (fun _ =>
      { create := { result := some 7 }, setup := { exit := .assertion "" } }) ⟨true, 5⟩ 5 oneFixture).moments[3]
    (List.getElem_mem _) .global "" "db" 7 (by decide)
  obtain ⟨i, e, hi, he, -, -, hsetup, -⟩ := hget
  have hzero : i = 0 := Option.some.inj (hi.symm.trans (by decide))
  subst hzero
  cases he
  have hsucc := (hsetup rfl).returns
  cases hsucc

end Gentest.Fixture
