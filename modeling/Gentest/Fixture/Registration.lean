import Mathlib.Data.List.Induction
import Mathlib.Data.List.Sort
import Mathlib.Data.Prod.Lex
import Mathlib.Data.String.Basic

/-!
# Registration of shared fixtures

`register_shared_fixture` is called from static initialisers, in an order the
language leaves open. The entries it leaves behind, and whether it reports a
conflict, do not depend on that order (`registration_order_independent`).
-/

namespace Gentest.Fixture

-- ---------------------------------------------------------------------------
-- The registry
-- ---------------------------------------------------------------------------

inductive SharedFixtureScope
  | suite
  | global
  deriving DecidableEq, Repr

/-- What a function or object pointer points to; a null pointer is `none`. -/
abbrev Address := Nat

structure SharedFixtureEntry where
  fixtureName : String
  suite : String
  scope : SharedFixtureScope
  instancePtr : Option Address := none
  initialized : Bool := false
  initializing : Bool := false
  failed : Bool := false
  error : String := ""
  create : Option Address := none
  setup : Option Address := none
  teardown : Option Address := none
  deriving DecidableEq, Repr

structure SharedFixtureRegistry where
  entries : List SharedFixtureEntry := []
  teardownInProgress : Bool := false
  registrationError : Bool := false
  registrationErrors : List String := []
  deriving DecidableEq, Repr

/-- The run gate; `owner` is the thread that holds it while `active`. -/
structure SharedFixtureRunGate where
  active : Bool := false
  owner : Nat := 0
  deriving DecidableEq, Repr

/-- The arguments of one `register_shared_fixture` call. -/
structure Registration where
  scope : SharedFixtureScope
  suite : String
  fixtureName : String
  create : Option Address := none
  setup : Option Address := none
  teardown : Option Address := none
  deriving DecidableEq, Repr

def sharedFixtureScopeRank : SharedFixtureScope → Nat
  | .suite => 0
  | .global => 1

def sharedFixtureOrderLess (lhs rhs : SharedFixtureEntry) : Bool :=
  if lhs.fixtureName ≠ rhs.fixtureName then lhs.fixtureName < rhs.fixtureName
  else if sharedFixtureScopeRank lhs.scope ≠ sharedFixtureScopeRank rhs.scope then
    sharedFixtureScopeRank lhs.scope < sharedFixtureScopeRank rhs.scope
  else lhs.suite < rhs.suite

def sharedFixtureCallbacksMatch (entry : SharedFixtureEntry) (c : Registration) : Bool :=
  entry.create == c.create && entry.setup == c.setup && entry.teardown == c.teardown

def Registration.entry (c : Registration) : SharedFixtureEntry where
  fixtureName := c.fixtureName
  suite := c.suite
  scope := c.scope
  create := c.create
  setup := c.setup
  teardown := c.teardown

/-- How the scan over the present entries ends: a registration that is already
there, or one in conflict with a message. -/
inductive ScanResult
  | present
  | conflict (msg : String)
  deriving DecidableEq, Repr

/-- The loop over `reg.entries`; `none` when it runs to the end. -/
def scanEntries (c : Registration) : List SharedFixtureEntry → Option ScanResult
  | [] => none
  | entry :: rest =>
    if entry.fixtureName = c.fixtureName ∧ entry.suite = c.suite ∧ entry.scope = c.scope then
      if sharedFixtureCallbacksMatch entry c then some .present
      else some (.conflict s!"fixture '{c.fixtureName}' registered multiple times with conflicting callbacks")
    else if entry.fixtureName = c.fixtureName ∧ entry.scope ≠ c.scope then
      some (.conflict s!"fixture '{entry.fixtureName}' registered with conflicting scopes.")
    else scanEntries c rest

/-- `entries.insert(lower_bound(entries, entry, less), entry)`: in front of the
first entry that is not less. -/
def insertEntry (entries : List SharedFixtureEntry) (entry : SharedFixtureEntry) : List SharedFixtureEntry :=
  entries.takeWhile (sharedFixtureOrderLess · entry) ++
    entry :: entries.dropWhile (sharedFixtureOrderLess · entry)

def SharedFixtureRegistry.addError (reg : SharedFixtureRegistry) (msg : String) : SharedFixtureRegistry :=
  { reg with registrationError := true, registrationErrors := reg.registrationErrors ++ [msg] }

def registerSharedFixture (gate : SharedFixtureRunGate) (reg : SharedFixtureRegistry) (c : Registration) :
    SharedFixtureRegistry :=
  if gate.active then
    reg.addError s!"fixture '{c.fixtureName}' cannot be registered while a test run is active"
  else
    match scanEntries c reg.entries with
    | some .present => reg
    | some (.conflict msg) => reg.addError msg
    | none => { reg with entries := insertEntry reg.entries c.entry }

def registerAll (gate : SharedFixtureRunGate) (calls : List Registration) : SharedFixtureRegistry :=
  calls.foldl (registerSharedFixture gate) {}

-- ---------------------------------------------------------------------------
-- The order of the entries
-- ---------------------------------------------------------------------------

/-- What `shared_fixture_order_less` compares. -/
def SharedFixtureEntry.orderKey (e : SharedFixtureEntry) : String ×ₗ Nat ×ₗ String :=
  toLex (e.fixtureName, toLex (sharedFixtureScopeRank e.scope, e.suite))

theorem sharedFixtureScopeRank_inj : sharedFixtureScopeRank a = sharedFixtureScopeRank b ↔ a = b := by
  cases a <;> cases b <;> simp [sharedFixtureScopeRank]

theorem orderLess_iff_key : sharedFixtureOrderLess a b = true ↔ a.orderKey < b.orderKey := by
  simp only [sharedFixtureOrderLess, SharedFixtureEntry.orderKey, Prod.Lex.toLex_lt_toLex]
  split
  · rename_i hname
    simp [hname]
  · rename_i hname
    split
    · rename_i hrank
      simp [not_not.mp hname, hrank]
    · rename_i hrank
      simp [not_not.mp hname, not_not.mp hrank]

theorem orderKey_eq_iff {a b : SharedFixtureEntry} : a.orderKey = b.orderKey ↔
    a.fixtureName = b.fixtureName ∧ a.scope = b.scope ∧ a.suite = b.suite := by
  simp [SharedFixtureEntry.orderKey, sharedFixtureScopeRank_inj]

instance : Std.Irrefl fun a b => sharedFixtureOrderLess a b = true where
  irrefl _ h := lt_irrefl _ (orderLess_iff_key.mp h)

instance : Std.Antisymm fun a b => sharedFixtureOrderLess a b = true where
  antisymm _ _ hab hba := (lt_asymm (orderLess_iff_key.mp hab) (orderLess_iff_key.mp hba)).elim

/-- Strictly sorted entries: what the scan, the setup loop and the lookup all
run over. -/
def SortedEntries (entries : List SharedFixtureEntry) : Prop :=
  entries.Pairwise fun a b => sharedFixtureOrderLess a b = true

theorem SortedEntries.index_eq {i j : Nat} (h : SortedEntries entries) (ha : entries[i]? = some a)
    (hb : entries[j]? = some b) (hkey : a.orderKey = b.orderKey) : i = j := by
  have hless := List.pairwise_iff_getElem.mp h
  obtain ⟨hi, rfl⟩ := List.getElem?_eq_some_iff.mp ha
  obtain ⟨hj, rfl⟩ := List.getElem?_eq_some_iff.mp hb
  rcases Nat.lt_trichotomy i j with hlt | heq | hgt
  · exact absurd hkey (ne_of_lt (orderLess_iff_key.mp (hless i j hi hj hlt)))
  · exact heq
  · exact absurd hkey.symm (ne_of_lt (orderLess_iff_key.mp (hless j i hj hi hgt)))

theorem SortedEntries.eq_of_key (h : SortedEntries entries) (ha : a ∈ entries) (hb : b ∈ entries)
    (hkey : a.orderKey = b.orderKey) : a = b := by
  obtain ⟨i, hi⟩ := List.getElem?_of_mem ha
  obtain ⟨j, hj⟩ := List.getElem?_of_mem hb
  rw [h.index_eq hi hj hkey, hj] at hi
  exact (Option.some.inj hi).symm

theorem mem_insertEntry : e ∈ insertEntry entries new ↔ e = new ∨ e ∈ entries := by
  rw [insertEntry, List.mem_append, List.mem_cons]
  conv_rhs => rw [← List.takeWhile_append_dropWhile (p := (sharedFixtureOrderLess · new)) (l := entries),
    List.mem_append]
  grind

theorem SortedEntries.insertEntry (h : SortedEntries entries) (hnew : ∀ e ∈ entries, e.orderKey ≠ new.orderKey) :
    SortedEntries (insertEntry entries new) := by
  induction entries with
  | nil => simp [Fixture.insertEntry, SortedEntries]
  | cons e rest ih =>
    obtain ⟨hhead, htail⟩ := List.pairwise_cons.mp h
    have hne := hnew e (List.mem_cons_self ..)
    have ih := ih htail fun e he => hnew e (List.mem_cons_of_mem _ he)
    by_cases hless : sharedFixtureOrderLess e new = true
    · have heq : Fixture.insertEntry (e :: rest) new = e :: Fixture.insertEntry rest new := by
        simp [Fixture.insertEntry, hless]
      rw [heq]
      refine List.pairwise_cons.mpr ⟨fun x hx => ?_, ih⟩
      rcases mem_insertEntry.mp hx with rfl | hx
      · exact hless
      · exact hhead x hx
    · have heq : Fixture.insertEntry (e :: rest) new = new :: e :: rest := by
        simp [Fixture.insertEntry, hless]
      have hlt : new.orderKey < e.orderKey :=
        lt_of_le_of_ne (not_lt.mp fun hlt => hless (orderLess_iff_key.mpr hlt)) hne.symm
      rw [heq]
      refine List.pairwise_cons.mpr ⟨fun x hx => ?_, h⟩
      rcases List.mem_cons.mp hx with rfl | hx
      · exact orderLess_iff_key.mpr hlt
      · exact orderLess_iff_key.mpr (hlt.trans (orderLess_iff_key.mp (hhead x hx)))

-- ---------------------------------------------------------------------------
-- One registration
-- ---------------------------------------------------------------------------

def Conflicts (a b : Registration) : Prop :=
  a.fixtureName = b.fixtureName ∧
    (a.scope ≠ b.scope ∨
      a.scope = b.scope ∧ a.suite = b.suite ∧
        (a.create ≠ b.create ∨ a.setup ≠ b.setup ∨ a.teardown ≠ b.teardown))

theorem Registration.entry_key {a b : Registration} : a.entry.orderKey = b.entry.orderKey ↔
    a.fixtureName = b.fixtureName ∧ a.scope = b.scope ∧ a.suite = b.suite := orderKey_eq_iff

theorem callbacksMatch_iff : sharedFixtureCallbacksMatch e c = true ↔
    e.create = c.create ∧ e.setup = c.setup ∧ e.teardown = c.teardown := by
  simp [sharedFixtureCallbacksMatch, and_assoc]

/-- The scan runs to the end only past entries the registration agrees with. -/
theorem scanEntries_none (h : scanEntries c entries = none) (he : e ∈ entries) :
    (e.fixtureName = c.fixtureName → e.scope = c.scope) ∧ e.orderKey ≠ c.entry.orderKey := by
  induction entries with
  | nil => cases he
  | cons entry rest ih =>
    simp only [scanEntries] at h
    split at h
    · split at h <;> cases h
    · rename_i hkey
      split at h
      · cases h
      · rename_i hscope
        rcases List.mem_cons.mp he with rfl | he
        · refine ⟨fun hname => by_contra fun hne => hscope ⟨hname, hne⟩, fun heq => hkey ?_⟩
          obtain ⟨hname, hsc, hsuite⟩ := orderKey_eq_iff.mp heq
          exact ⟨hname, hsuite, hsc⟩
        · exact ih h he

theorem scanEntries_present (h : scanEntries c entries = some .present) :
    ∃ e ∈ entries, e.orderKey = c.entry.orderKey ∧
      e.create = c.create ∧ e.setup = c.setup ∧ e.teardown = c.teardown := by
  induction entries with
  | nil => cases h
  | cons entry rest ih =>
    simp only [scanEntries] at h
    split at h
    · rename_i hkey
      split at h
      · rename_i hmatch
        refine ⟨entry, List.mem_cons_self .., orderKey_eq_iff.mpr ⟨hkey.1, hkey.2.2, hkey.2.1⟩, ?_⟩
        exact callbacksMatch_iff.mp hmatch
      · cases h
    · split at h
      · cases h
      · obtain ⟨e, he, hrest⟩ := ih h
        exact ⟨e, List.mem_cons_of_mem _ he, hrest⟩

theorem scanEntries_conflict {calls : List Registration} (h : scanEntries c entries = some (.conflict msg))
    (hfrom : ∀ e ∈ entries, ∃ a ∈ calls, e = Registration.entry a) : ∃ a ∈ calls, Conflicts a c := by
  induction entries with
  | nil => cases h
  | cons entry rest ih =>
    obtain ⟨a, ha, rfl⟩ := hfrom entry (List.mem_cons_self ..)
    simp only [scanEntries] at h
    split at h
    · rename_i hkey
      split at h
      · cases h
      · rename_i hmatch
        obtain ⟨hname, hsuite, hscope⟩ := hkey
        refine ⟨a, ha, hname, .inr ⟨hscope, hsuite, ?_⟩⟩
        rw [callbacksMatch_iff] at hmatch
        by_contra hsame
        push Not at hsame
        exact hmatch hsame
    · split at h
      · rename_i hscope
        exact ⟨a, ha, hscope.1, .inl hscope.2⟩
      · exact ih h fun e he => hfrom e (List.mem_cons_of_mem _ he)

-- ---------------------------------------------------------------------------
-- All registrations
-- ---------------------------------------------------------------------------

/-- What the registry knows of the calls made so far. While no error is
reported it holds an entry for each of them, so a conflict with any earlier
call is still seen by a later one. -/
structure Registered (calls : List Registration) (reg : SharedFixtureRegistry) : Prop where
  sorted : SortedEntries reg.entries
  idle : reg.teardownInProgress = false
  from_calls : ∀ e ∈ reg.entries, ∃ c ∈ calls, e = c.entry
  one_scope : ∀ a ∈ reg.entries, ∀ b ∈ reg.entries, a.fixtureName = b.fixtureName → a.scope = b.scope
  covered : reg.registrationError = false → ∀ c ∈ calls, c.entry ∈ reg.entries
  conflict : reg.registrationError = true → ∃ a ∈ calls, ∃ b ∈ calls, Conflicts a b
  silent : reg.registrationError = false → reg.registrationErrors = []

theorem registered_nil : Registered [] {} where
  sorted := .nil
  idle := rfl
  from_calls := nofun
  one_scope := nofun
  covered := fun _ => nofun
  conflict := nofun
  silent := fun _ => rfl

theorem Registered.addError (h : Registered calls reg) (ha : ∃ a ∈ calls, Conflicts a c) :
    Registered (calls ++ [c]) (reg.addError msg) where
  sorted := h.sorted
  idle := h.idle
  from_calls := by
    intro e he
    obtain ⟨b, hb, rfl⟩ := h.from_calls e he
    exact ⟨b, List.mem_append_left _ hb, rfl⟩
  one_scope := h.one_scope
  covered := nofun
  conflict := by
    intro _
    obtain ⟨a, ha, hconf⟩ := ha
    exact ⟨a, List.mem_append_left _ ha, c, by simp, hconf⟩
  silent := nofun

theorem Registered.again (h : Registered calls reg) (hc : c.entry ∈ reg.entries) :
    Registered (calls ++ [c]) reg where
  sorted := h.sorted
  idle := h.idle
  from_calls := by
    intro e he
    obtain ⟨b, hb, rfl⟩ := h.from_calls e he
    exact ⟨b, List.mem_append_left _ hb, rfl⟩
  one_scope := h.one_scope
  covered := by
    intro herr b hb
    rcases List.mem_append.mp hb with hb | hb
    · exact h.covered herr b hb
    · rw [List.mem_singleton.mp hb]
      exact hc
  conflict := by
    intro herr
    obtain ⟨a, ha, b, hb, hconf⟩ := h.conflict herr
    exact ⟨a, List.mem_append_left _ ha, b, List.mem_append_left _ hb, hconf⟩
  silent := h.silent

theorem Registered.insert (h : Registered calls reg) (hscan : scanEntries c reg.entries = none) :
    Registered (calls ++ [c]) { reg with entries := insertEntry reg.entries c.entry } where
  sorted := h.sorted.insertEntry fun e he => (scanEntries_none hscan he).2
  idle := h.idle
  from_calls := by
    intro e he
    rcases mem_insertEntry.mp he with rfl | he
    · exact ⟨c, by simp, rfl⟩
    · obtain ⟨b, hb, rfl⟩ := h.from_calls e he
      exact ⟨b, List.mem_append_left _ hb, rfl⟩
  one_scope := by
    intro a ha b hb hname
    rcases mem_insertEntry.mp ha with rfl | ha <;> rcases mem_insertEntry.mp hb with rfl | hb
    · rfl
    · exact ((scanEntries_none hscan hb).1 hname.symm).symm
    · exact (scanEntries_none hscan ha).1 hname
    · exact h.one_scope a ha b hb hname
  covered := by
    intro herr b hb
    rw [mem_insertEntry]
    rcases List.mem_append.mp hb with hb | hb
    · exact .inr (h.covered herr b hb)
    · rw [List.mem_singleton.mp hb]
      exact .inl rfl
  conflict := by
    intro herr
    obtain ⟨a, ha, b, hb, hconf⟩ := h.conflict herr
    exact ⟨a, List.mem_append_left _ ha, b, List.mem_append_left _ hb, hconf⟩
  silent := h.silent

theorem Registered.register (hgate : gate.active = false) (h : Registered calls reg) :
    Registered (calls ++ [c]) (registerSharedFixture gate reg c) := by
  unfold registerSharedFixture
  rw [hgate, if_neg Bool.false_ne_true]
  split
  · rename_i hscan
    obtain ⟨e, he, hkey, hcreate, hsetup, hteardown⟩ := scanEntries_present hscan
    obtain ⟨b, hb, rfl⟩ := h.from_calls e he
    -- an entry made by a call is that call, so equal keys and callbacks are equal entries
    have heq : b.entry = c.entry := by
      obtain ⟨hname, hscope, hsuite⟩ := Registration.entry_key.mp hkey
      cases b
      cases c
      simp_all [Registration.entry]
    rw [heq] at he
    exact h.again he
  · rename_i msg hscan
    exact h.addError (scanEntries_conflict hscan h.from_calls)
  · rename_i hscan
    exact h.insert hscan

theorem registered_registerAll (calls : List Registration) (hgate : gate.active = false) : Registered calls (registerAll gate calls) := by
  induction calls using List.reverseRecOn with
  | nil => exact registered_nil
  | append_singleton calls c ih =>
    rw [registerAll, List.foldl_append]
    exact ih.register hgate

theorem Registered.mem_iff (h : Registered calls reg) (herr : reg.registrationError = false) :
    e ∈ reg.entries ↔ ∃ c ∈ calls, e = c.entry := by
  constructor
  · exact h.from_calls e
  · rintro ⟨c, hc, rfl⟩
    exact h.covered herr c hc

theorem Registered.error_iff (h : Registered calls reg) :
    reg.registrationError = true ↔ ∃ a ∈ calls, ∃ b ∈ calls, Conflicts a b := by
  refine ⟨h.conflict, ?_⟩
  rintro ⟨a, ha, b, hb, hname, hconf⟩
  by_contra hne
  have herr : reg.registrationError = false := by simpa using hne
  have hea := h.covered herr a ha
  have heb := h.covered herr b hb
  have hscope : a.scope = b.scope := h.one_scope _ hea _ heb hname
  rcases hconf with hne | ⟨-, hsuite, hcall⟩
  · exact hne hscope
  · have heq := h.sorted.eq_of_key hea heb (Registration.entry_key.mpr ⟨hname, hscope, hsuite⟩)
    simp only [Registration.entry, SharedFixtureEntry.mk.injEq] at heq
    obtain ⟨-, -, -, -, -, -, -, -, hcreate, hsetup, hteardown⟩ := heq
    rcases hcall with hne | hne | hne
    · exact hne hcreate
    · exact hne hsetup
    · exact hne hteardown

theorem Registered.unique (h : Registered calls reg) (h' : Registered calls' reg')
    (hperm : calls.Perm calls') (herr : reg.registrationError = false)
    (herr' : reg'.registrationError = false) : reg = reg' := by
  have hentries : reg.entries = reg'.entries :=
    List.Pairwise.eq_of_mem_iff h.sorted h'.sorted fun e => by
      rw [h.mem_iff herr, h'.mem_iff herr']
      simp only [hperm.mem_iff]
  have herrs := (h.silent herr).trans (h'.silent herr').symm
  have hidle := h.idle.trans h'.idle.symm
  cases reg
  cases reg'
  simp_all

/-- Any two orders of the same calls report a conflict together, exactly when
two of the calls conflict; without one they leave the same registry, with one
entry per distinct name, scope and suite, strictly sorted. -/
theorem registration_order_independent (calls calls' : List Registration) (gate : SharedFixtureRunGate)
    (hgate : gate.active = false) (hperm : calls.Perm calls') :
    (registerAll gate calls).registrationError = (registerAll gate calls').registrationError ∧
    ((registerAll gate calls).registrationError = true ↔ ∃ a ∈ calls, ∃ b ∈ calls, Conflicts a b) ∧
    ((registerAll gate calls).registrationError = false →
      registerAll gate calls = registerAll gate calls' ∧
      SortedEntries (registerAll gate calls).entries ∧
      ((registerAll gate calls).entries.map fun e => (e.fixtureName, e.scope, e.suite)).Nodup ∧
      ∀ name scope suite,
        (name, scope, suite) ∈ (registerAll gate calls).entries.map (fun e => (e.fixtureName, e.scope, e.suite)) ↔
          ∃ c ∈ calls, c.fixtureName = name ∧ c.scope = scope ∧ c.suite = suite) := by
  have h := registered_registerAll calls hgate
  have h' := registered_registerAll calls' hgate
  have hsame : (registerAll gate calls).registrationError = (registerAll gate calls').registrationError := by
    rw [Bool.eq_iff_iff, h.error_iff, h'.error_iff]
    simp only [hperm.mem_iff]
  refine ⟨hsame, h.error_iff, fun herr => ⟨?_, h.sorted, ?_, ?_⟩⟩
  · exact h.unique h' hperm herr (hsame ▸ herr)
  · refine List.pairwise_map.mpr (h.sorted.imp fun hless heq => ?_)
    obtain ⟨hname, hrest⟩ := Prod.mk.inj heq
    obtain ⟨hscope, hsuite⟩ := Prod.mk.inj hrest
    exact ne_of_lt (orderLess_iff_key.mp hless) (orderKey_eq_iff.mpr ⟨hname, hscope, hsuite⟩)
  · intro name scope suite
    simp only [List.mem_map, h.mem_iff herr, Prod.mk.injEq]
    constructor
    · rintro ⟨e, ⟨c, hc, rfl⟩, hkey⟩
      exact ⟨c, hc, hkey⟩
    · rintro ⟨c, hc, hkey⟩
      exact ⟨c.entry, ⟨c, hc, rfl⟩, hkey⟩

theorem registration_of_two_fixtures :
    (registerAll {} [⟨.global, "", "db", some 1, none, none⟩, ⟨.suite, "io", "cache", some 2, none, none⟩]).entries =
      (registerAll {} [⟨.suite, "io", "cache", some 2, none, none⟩, ⟨.global, "", "db", some 1, none, none⟩]).entries :=
  congrArg _ ((registration_order_independent _ _ {} rfl (List.Perm.swap _ _ _)).2.2 (by decide)).1

end Gentest.Fixture
