import Gentest.Fixture.Pairing

/-!
# The fixture of the nearest suite

`get_shared_fixture` looks at the entries whose suite is the requested one or
encloses it, and answers with the one of the longest suite. Enclosing suites
are fronts of one text, so no two have the same length.
-/

namespace Gentest.Fixture

-- ---------------------------------------------------------------------------
-- Selection
-- ---------------------------------------------------------------------------

/-- The entry that is selected serves the request and has the longest suite. -/
theorem selectFrom_max {scope : SharedFixtureScope} {suite name : String}
    {es : List SharedFixtureEntry} {k i : Nat} {e : SharedFixtureEntry}
    {selected : Option (Nat × SharedFixtureEntry)}
    (h : selectFrom scope suite name es k selected = some (i, e)) :
    (∀ s ∈ selected, s.2.suite.utf8ByteSize ≤ e.suite.utf8ByteSize) ∧
      ∀ e' ∈ es, e'.serves scope suite name = true → e'.suite.utf8ByteSize ≤ e.suite.utf8ByteSize := by
  induction es generalizing k selected with
  | nil =>
    cases h
    exact ⟨fun s hs => by cases hs; exact Nat.le_refl _, nofun⟩
  | cons e' es ih =>
    unfold selectFrom at h
    split at h
    · rename_i hbetter
      obtain ⟨hself, hrest⟩ := ih h
      have he' := hself _ rfl
      rw [Bool.and_eq_true] at hbetter
      refine ⟨fun s hs => ?_, List.forall_mem_cons.mpr ⟨fun _ => he', hrest⟩⟩
      cases hs
      have hlt := hbetter.2
      simp only [Option.all_some, decide_eq_true_eq] at hlt
      exact Nat.le_trans (Nat.le_of_lt hlt) he'
    · rename_i hbetter
      obtain ⟨hselected, hrest⟩ := ih h
      refine ⟨hselected, List.forall_mem_cons.mpr ⟨fun hserves => ?_, hrest⟩⟩
      rw [hserves, Bool.true_and, Bool.not_eq_true] at hbetter
      cases selected with
      | none => cases hbetter
      | some s =>
        simp only [Option.all_some, decide_eq_false_iff_not, not_lt] at hbetter
        exact Nat.le_trans hbetter (hselected s rfl)

theorem selectFrom_none {scope : SharedFixtureScope} {suite name : String}
    {es : List SharedFixtureEntry} {k : Nat} {selected : Option (Nat × SharedFixtureEntry)}
    (h : selectFrom scope suite name es k selected = none) :
    ∀ e ∈ es, e.serves scope suite name = false := by
  have hkeeps : ∀ (es : List SharedFixtureEntry) k s,
      (selectFrom scope suite name es k (some s)).isSome := by
    intro es
    induction es with
    | nil => exact fun _ _ => rfl
    | cons e es ih =>
      intro k s
      unfold selectFrom
      split
      · exact ih _ _
      · exact ih _ _
  induction es generalizing k selected with
  | nil => exact List.forall_mem_nil _
  | cons e es ih =>
    unfold selectFrom at h
    split at h
    · rename_i hbetter
      have hsome := hkeeps es (k + 1) (k, e)
      rw [h] at hsome
      cases hsome
    · rename_i hbetter
      refine List.forall_mem_cons.mpr ⟨?_, ih h⟩
      cases selected with
      | none => simpa using hbetter
      | some s =>
        have hsome := hkeeps es (k + 1) s
        rw [h] at hsome
        cases hsome

theorem selectFrom_serves {scope : SharedFixtureScope} {suite name : String}
    {reg : SharedFixtureRegistry} {i : Nat} {e : SharedFixtureEntry}
    (h : selectSharedFixture reg scope suite name = some (i, e)) :
    e ∈ reg.entries ∧ e.serves scope suite name = true := by
  refine ⟨List.mem_of_getElem? (select_mem h), ?_⟩
  have hserves : ∀ (es : List SharedFixtureEntry) k selected,
      (∀ s ∈ selected, SharedFixtureEntry.serves s.2 scope suite name = true) →
        ∀ r ∈ selectFrom scope suite name es k selected, r.2.serves scope suite name = true := by
    intro es
    induction es with
    | nil => exact fun _ _ h => h
    | cons e es ih =>
      intro k selected hselected
      unfold selectFrom
      split
      · rename_i hbetter
        rw [Bool.and_eq_true] at hbetter
        exact ih _ _ fun s hs => by cases hs; exact hbetter.1
      · exact ih _ _ hselected
  exact hserves reg.entries 0 none (by simp) (i, e) h

theorem prefix_size_lt {a b : String} (h : a.toList <+: b.toList) (hne : a ≠ b) :
    a.utf8ByteSize < b.utf8ByteSize := by
  obtain ⟨rest, hrest⟩ := h
  have hb : b = a ++ String.ofList rest := by
    rw [← String.toList_inj, String.toList_append, String.toList_ofList, hrest]
  have hrest' : rest ≠ [] := by
    rintro rfl
    rw [List.append_nil] at hrest
    exact hne (String.toList_inj.mp hrest)
  have hpos : (String.ofList rest).utf8ByteSize ≠ 0 := by
    intro hzero
    have hempty := String.utf8ByteSize_eq_zero_iff.mp hzero
    exact hrest' (by rw [← String.toList_ofList (l := rest), hempty]; rfl)
  rw [hb, String.utf8ByteSize_append]
  omega

theorem isPrefix_of_suiteScopeMatches {a suite : String} (h : suiteScopeMatches a suite = true) :
    a.toList <+: suite.toList := by
  unfold suiteScopeMatches at h
  split at h
  · rename_i hempty
    subst hempty
    exact List.nil_prefix
  · split at h
    · rename_i heq
      subst heq
      exact List.prefix_rfl
    · split at h
      · cases h
      · rename_i hstarts
        push Not at hstarts
        exact List.isPrefixOf_iff_prefix.mp hstarts.2

theorem suiteScopeMatches_inj {a b suite : String} (ha : suiteScopeMatches a suite = true)
    (hb : suiteScopeMatches b suite = true) (hsize : a.utf8ByteSize = b.utf8ByteSize) : a = b := by
  by_contra hne
  rcases List.prefix_or_prefix_of_prefix (isPrefix_of_suiteScopeMatches ha)
      (isPrefix_of_suiteScopeMatches hb) with h | h
  · have hlt := prefix_size_lt h hne
    omega
  · have hlt := prefix_size_lt h (Ne.symm hne)
    omega

-- ---------------------------------------------------------------------------
-- Suites that enclose the requested one
-- ---------------------------------------------------------------------------

/-- No suite, the requested suite itself, or a proper front of it up to a `/` or
a `::`. -/
def Encloses (fixtureSuite requestedSuite : String) : Prop :=
  fixtureSuite = "" ∨ fixtureSuite = requestedSuite ∨
    ∃ rest, requestedSuite.toList = fixtureSuite.toList ++ rest ∧ (['/'] <+: rest ∨ [':', ':'] <+: rest)

theorem suiteScopeMatches_iff {fixtureSuite suite : String} :
    suiteScopeMatches fixtureSuite suite = true ↔ Encloses fixtureSuite suite := by
  constructor
  · intro h
    obtain ⟨rest, hrest⟩ := isPrefix_of_suiteScopeMatches h
    unfold suiteScopeMatches at h
    split at h
    · rename_i hempty
      exact .inl hempty
    · split at h
      · rename_i heq
        exact .inr (.inl heq.symm)
      · rename_i hne
        split at h
        · cases h
        · rw [← hrest, List.drop_left] at h
          refine .inr (.inr ⟨rest, hrest.symm, ?_⟩)
          split at h
          · rw [List.append_nil] at hrest
            exact absurd (String.toList_inj.mp hrest).symm hne
          · exact .inl ⟨_, rfl⟩
          · exact .inr ⟨_, rfl⟩
          · cases h
  · rintro (rfl | rfl | ⟨rest, hrest, hboundary⟩)
    · simp [suiteScopeMatches]
    · exact suiteScopeMatches_self
    · have hproper : fixtureSuite ≠ suite := by
        rintro rfl
        have hnil : rest = [] := by simpa using hrest
        subst hnil
        rcases hboundary with h | h <;> simp at h
      have hsize := prefix_size_lt ⟨rest, hrest.symm⟩ hproper
      have hfront : fixtureSuite.toList.isPrefixOf suite.toList = true :=
        List.isPrefixOf_iff_prefix.mpr ⟨rest, hrest.symm⟩
      unfold suiteScopeMatches
      rw [hrest, List.drop_left, ← hrest]
      rcases hboundary with ⟨tail, rfl⟩ | ⟨tail, rfl⟩ <;>
        simp [Ne.symm hproper, Nat.not_le.mpr hsize, hfront]

-- ---------------------------------------------------------------------------
-- The selected entry
-- ---------------------------------------------------------------------------

/-- An entry the lookup compares with what it has selected so far. -/
structure Considered (reg : SharedFixtureRegistry) (scope : SharedFixtureScope) (suite name : String)
    (e : SharedFixtureEntry) : Prop where
  registered : e ∈ reg.entries
  inScope : e.scope = scope
  named : e.fixtureName = name
  encloses : Encloses e.suite suite

/-- Its suite is longer than that of any other. -/
structure Nearest (reg : SharedFixtureRegistry) (scope : SharedFixtureScope) (suite name : String)
    (e : SharedFixtureEntry) : Prop extends Considered reg scope suite name e where
  longest : ∀ other, Considered reg scope suite name other → other ≠ e →
    other.suite.utf8ByteSize < e.suite.utf8ByteSize

theorem serves_iff {e : SharedFixtureEntry} {scope : SharedFixtureScope} {suite name : String} :
    e.serves scope suite name = true ↔ e.scope = scope ∧ e.fixtureName = name ∧ Encloses e.suite suite := by
  simp [SharedFixtureEntry.serves, suiteScopeMatches_iff, and_assoc]

section

variable {reg : SharedFixtureRegistry} {scope : SharedFixtureScope} {suite name : String}

theorem considered_iff {e : SharedFixtureEntry} :
    Considered reg scope suite name e ↔ e ∈ reg.entries ∧ e.serves scope suite name = true := by
  rw [serves_iff]
  exact ⟨fun h => ⟨h.registered, h.inScope, h.named, h.encloses⟩, fun h => ⟨h.1, h.2.1, h.2.2.1, h.2.2.2⟩⟩

theorem Considered.eq_of_size {e other : SharedFixtureEntry} (hsorted : SortedEntries reg.entries)
    (he : Considered reg scope suite name e) (hother : Considered reg scope suite name other)
    (hsize : e.suite.utf8ByteSize = other.suite.utf8ByteSize) : e = other := by
  refine hsorted.eq_of_key he.registered hother.registered (orderKey_eq_iff.mpr ⟨?_, ?_, ?_⟩)
  · rw [he.named, hother.named]
  · rw [he.inScope, hother.inScope]
  · exact suiteScopeMatches_inj (suiteScopeMatches_iff.mpr he.encloses) (suiteScopeMatches_iff.mpr hother.encloses) hsize

theorem Nearest.unique {e other : SharedFixtureEntry} (he : Nearest reg scope suite name e)
    (hother : Nearest reg scope suite name other) : e = other := by
  by_contra hne
  exact Nat.lt_asymm (he.longest other hother.toConsidered (Ne.symm hne)) (hother.longest e he.toConsidered hne)

theorem select_nearest {i : Nat} {e : SharedFixtureEntry} (hsorted : SortedEntries reg.entries)
    (h : selectSharedFixture reg scope suite name = some (i, e)) : Nearest reg scope suite name e where
  toConsidered := considered_iff.mpr (selectFrom_serves h)
  longest := by
    intro other hother hne
    have hle := (selectFrom_max h).2 other hother.registered (considered_iff.mp hother).2
    refine Nat.lt_of_le_of_ne hle fun hsize => hne ?_
    exact hother.eq_of_size hsorted (considered_iff.mpr (selectFrom_serves h)) hsize

theorem select_iff_nearest {i : Nat} {e : SharedFixtureEntry} (hsorted : SortedEntries reg.entries) :
    selectSharedFixture reg scope suite name = some (i, e) ↔
      reg.entries[i]? = some e ∧ Nearest reg scope suite name e := by
  refine ⟨fun h => ⟨select_mem h, select_nearest hsorted h⟩, ?_⟩
  rintro ⟨hget, hnearest⟩
  have hserves := considered_iff.mp hnearest.toConsidered
  have hpick := selectFrom_longest scope suite name 0 none hget hserves.2 ?_ nofun
  · rw [Nat.zero_add] at hpick
    exact hpick
  · intro j other hj hne hother
    refine hnearest.longest other (considered_iff.mpr ⟨List.mem_of_getElem? hj, hother⟩) fun heq => hne ?_
    subst heq
    exact hsorted.index_eq hj hget rfl

theorem select_none_iff :
    selectSharedFixture reg scope suite name = none ↔ ∀ e, ¬Considered reg scope suite name e := by
  constructor
  · intro h e he
    obtain ⟨hmem, hserves⟩ := considered_iff.mp he
    rw [selectFrom_none h e hmem] at hserves
    cases hserves
  · intro h
    by_contra hsome
    obtain ⟨⟨i, e⟩, hsel⟩ := Option.ne_none_iff_exists'.mp hsome
    exact h e (considered_iff.mpr (selectFrom_serves hsel))

end

-- ---------------------------------------------------------------------------
-- Registries reached by registrations
-- ---------------------------------------------------------------------------

def registerEach (calls : List (SharedFixtureRunGate × Registration)) : SharedFixtureRegistry :=
  calls.foldl (fun reg call => registerSharedFixture call.1 reg call.2) {}

theorem SortedEntries.register {reg : SharedFixtureRegistry} (h : SortedEntries reg.entries) (gate : SharedFixtureRunGate)
    (c : Registration) : SortedEntries (registerSharedFixture gate reg c).entries := by
  unfold registerSharedFixture
  split
  · exact h
  · split
    · exact h
    · exact h
    · rename_i hscan
      exact h.insertEntry fun e he => (scanEntries_none hscan he).2

theorem registerEach_sorted (calls : List (SharedFixtureRunGate × Registration)) :
    SortedEntries (registerEach calls).entries := by
  induction calls using List.reverseRecOn with
  | nil => exact .nil
  | append_singleton calls call ih =>
    rw [registerEach, List.foldl_concat]
    exact ih.register call.1 call.2

theorem registerShared_error {gate : SharedFixtureRunGate} {reg : SharedFixtureRegistry} {c : Registration}
    (h : (registerSharedFixture gate reg c).registrationError = false) :
    reg.registrationError = false ∧ gate.active = false := by
  unfold registerSharedFixture at h
  split at h
  · cases h
  · rename_i hgate
    refine ⟨?_, by simpa using hgate⟩
    split at h
    · exact h
    · cases h
    · exact h

theorem registerEach_quiet {calls : List (SharedFixtureRunGate × Registration)}
    (h : (registerEach calls).registrationError = false) : ∀ call ∈ calls, call.1.active = false := by
  induction calls using List.reverseRecOn with
  | nil => exact nofun
  | append_singleton calls call ih =>
    rw [registerEach, List.foldl_concat] at h
    obtain ⟨hbefore, hgate⟩ := registerShared_error h
    intro other hother
    rcases List.mem_append.mp hother with hother | hother
    · exact ih hbefore other hother
    · rw [List.mem_singleton.mp hother]
      exact hgate

theorem registerEach_registered {calls : List (SharedFixtureRunGate × Registration)}
    (hgates : ∀ call ∈ calls, call.1.active = false) : Registered (calls.map Prod.snd) (registerEach calls) := by
  induction calls using List.reverseRecOn with
  | nil => exact registered_nil
  | append_singleton calls call ih =>
    have hbefore := ih fun other hother => hgates other (List.mem_append_left _ hother)
    rw [registerEach, List.foldl_concat, List.map_append, List.map_singleton]
    exact hbefore.register (hgates call (by simp))

/-- An error is reported in every order or in none, and without one the order
changes nothing. -/
theorem registerEach_perm {calls calls' : List (SharedFixtureRunGate × Registration)} (hperm : calls.Perm calls') :
    (registerEach calls).registrationError = (registerEach calls').registrationError ∧
      ((registerEach calls).registrationError = false → registerEach calls = registerEach calls') := by
  have hquiet : ∀ {calls calls' : List (SharedFixtureRunGate × Registration)}, calls.Perm calls' →
      (registerEach calls).registrationError = false → registerEach calls = registerEach calls' := by
    intro calls calls' hperm hfalse
    have hgates := registerEach_quiet hfalse
    have hcalls := registerEach_registered hgates
    have hcalls' := registerEach_registered fun call hcall => hgates call (hperm.mem_iff.mpr hcall)
    have hsnd := hperm.map Prod.snd
    have hfalse' : (registerEach calls').registrationError = false := by
      rw [← Bool.not_eq_true, hcalls'.error_iff]
      simp only [← hsnd.mem_iff, ← hcalls.error_iff, hfalse, Bool.false_eq_true, not_false_eq_true]
    exact hcalls.unique hcalls' hsnd hfalse hfalse'
  refine ⟨?_, hquiet hperm⟩
  cases herr : (registerEach calls).registrationError with
  | false => rw [← hquiet hperm herr, herr]
  | true =>
    cases herr' : (registerEach calls').registrationError with
    | true => rfl
    | false =>
      rw [← hquiet hperm.symm herr', herr'] at herr
      cases herr

end Gentest.Fixture
