import Gentest.Codegen.HeaderMerge

/-!
# Registration exactly once

The merge loses no case: what a slot observed at a site has the fingerprints of
every other slot there, and of the owner of its entity. What it groups the sites
by is the entity of the first occurrence, so a site that shows several entities
in one slot, as a header included into two namespaces does, counts for one of
them only. Of the fixtures there the others are lost.
-/

namespace Gentest.Codegen

open Sorting

-- ---------------------------------------------------------------------------
-- Sites
-- ---------------------------------------------------------------------------

section

variable {std : UnstableSort} {α : Type} {g : Grouping α} {items : List α} {a : α}
  {s s' : Site α} {o : Observed α}

def observedWith (g : Grouping α) (items : List α) (a : α) : List α :=
  (items.filter fun b => g.site b = g.site a).filter fun b => g.slot b = g.slot a

theorem mem_observedWith {b : α} :
    b ∈ observedWith g items a ↔ b ∈ items ∧ g.site b = g.site a ∧ g.slot b = g.slot a := by
  simp only [observedWith, List.mem_filter, decide_eq_true_eq, and_assoc]

theorem observedWith_congr {b : α} (hsite : g.site b = g.site a) (hslot : g.slot b = g.slot a) :
    observedWith g items b = observedWith g items a := by
  rw [observedWith, observedWith, hsite, hslot]

theorem observe_perm (h : observe std g items = some o) : o.all.Perm items := by
  unfold observe at h
  split at h
  · cases h
  · rename_i first rest hsort
    cases h
    rw [Observed.all, ← hsort]
    exact std.perm g.less items

theorem exists_observe (std : UnstableSort) (g : Grouping α) (h : a ∈ items) : ∃ o, observe std g items = some o := by
  unfold observe
  split
  · rename_i hsort
    have hmem : a ∈ std.sort g.less items := std.mem_sort.mpr h
    rw [hsort] at hmem
    cases hmem
  · exact ⟨_, rfl⟩

theorem siteOf_occurrences {key : String} (h : siteOf std g key items = some s) :
    s.key = key ∧
      s.occurrences = (byKey g.slot items).filterMap fun bySlot => observe std g bySlot.2 := by
  unfold siteOf at h
  split at h
  · cases h
  · rename_i first rest hslots
    cases h
    exact ⟨rfl, hslots.symm⟩

theorem exists_siteOf (std : UnstableSort) (g : Grouping α) (key : String) (h : a ∈ items) : ∃ s, siteOf std g key items = some s := by
  unfold siteOf
  split
  · rename_i hslots
    have hgroup : (g.slot a, items.filter fun b => g.slot b = g.slot a) ∈ byKey g.slot items :=
      mem_byKey.mpr ⟨a, h, rfl⟩
    have hmem : a ∈ items.filter fun b => g.slot b = g.slot a := by simp [h]
    obtain ⟨o, ho⟩ := exists_observe std g hmem
    have hsome := List.filterMap_eq_nil_iff.mp hslots _ hgroup
    rw [ho] at hsome
    cases hsome
  · exact ⟨_, rfl⟩

theorem mem_declarationSites (hs : s ∈ declarationSites std g items) :
    ∃ a ∈ items, s.key = g.site a ∧
      s.occurrences = (byKey g.slot (items.filter fun b => g.site b = g.site a)).filterMap
        fun bySlot => observe std g bySlot.2 := by
  obtain ⟨bySite, hbySite, hsite⟩ := List.mem_filterMap.mp hs
  obtain ⟨a, ha, rfl⟩ := mem_byKey.mp hbySite
  exact ⟨a, ha, siteOf_occurrences hsite⟩

theorem observe_of_mem (hs : s ∈ declarationSites std g items) (ho : o ∈ s.occurrences) :
    ∃ a ∈ items, g.site a = s.key ∧ observe std g (observedWith g items a) = some o := by
  obtain ⟨b, -, hkey, hocc⟩ := mem_declarationSites hs
  rw [hocc] at ho
  obtain ⟨bySlot, hbySlot, hobs⟩ := List.mem_filterMap.mp ho
  obtain ⟨a, ha, rfl⟩ := mem_byKey.mp hbySlot
  obtain ⟨ha, hsite⟩ := List.mem_filter.mp ha
  have hsite : g.site a = g.site b := of_decide_eq_true hsite
  refine ⟨a, ha, hsite.trans hkey.symm, ?_⟩
  rw [observedWith, hsite]
  exact hobs

theorem exists_site (std : UnstableSort) (g : Grouping α) (ha : a ∈ items) :
    ∃ s ∈ declarationSites std g items, s.key = g.site a ∧
      ∃ o ∈ s.occurrences, observe std g (observedWith g items a) = some o := by
  have hgroup : (g.site a, items.filter fun b => g.site b = g.site a) ∈ byKey g.site items :=
    mem_byKey.mpr ⟨a, ha, rfl⟩
  have hmem : a ∈ items.filter fun b => g.site b = g.site a := by simp [ha]
  obtain ⟨s, hs⟩ := exists_siteOf std g (g.site a) hmem
  obtain ⟨hkey, hocc⟩ := siteOf_occurrences hs
  refine ⟨s, List.mem_filterMap.mpr ⟨_, hgroup, hs⟩, hkey, ?_⟩
  have hobserved : a ∈ observedWith g items a := mem_observedWith.mpr ⟨ha, rfl, rfl⟩
  obtain ⟨o, ho⟩ := exists_observe std g hobserved
  refine ⟨o, ?_, ho⟩
  rw [hocc]
  exact List.mem_filterMap.mpr ⟨_, mem_byKey.mpr ⟨a, hmem, rfl⟩, ho⟩

theorem site_eq_of_key (hs : s ∈ declarationSites std g items) (hs' : s' ∈ declarationSites std g items)
    (hkey : s.key = s'.key) : s = s' := by
  obtain ⟨a, -, hka, hocc⟩ := mem_declarationSites hs
  obtain ⟨b, -, hkb, hocc'⟩ := mem_declarationSites hs'
  have hoccs : s.occurrences = s'.occurrences := by
    rw [hocc, hocc', ← hka, ← hkb, hkey]
  obtain ⟨key, first, rest⟩ := s
  obtain ⟨key', first', rest'⟩ := s'
  cases hkey
  cases hoccs
  rfl

theorem mem_sitesByEntity {group : String × List (Site α)} (h : group ∈ sitesByEntity std g items) :
    s ∈ group.2 ↔ s ∈ declarationSites std g items ∧ s.entity g = group.1 := by
  obtain ⟨_, hgroup, rfl⟩ := List.mem_map.mp h
  obtain ⟨_, -, rfl⟩ := mem_byKey.mp hgroup
  simp [std.mem_sort]

theorem exists_group (hs : s ∈ declarationSites std g items) :
    ∃ group ∈ sitesByEntity std g items, group.1 = s.entity g ∧ s ∈ group.2 := by
  refine ⟨_, List.mem_map.mpr ⟨_, mem_byKey.mpr ⟨s, hs, rfl⟩, rfl⟩, rfl, ?_⟩
  simp [std.mem_sort, hs]

theorem sitesByEntity_nodup : ((sitesByEntity std g items).map Prod.fst).Nodup := by
  have hkeys : (sitesByEntity std g items).map Prod.fst =
      (byKey (Site.entity g) (declarationSites std g items)).map Prod.fst := by
    simp [sitesByEntity, Function.comp_def]
  rw [hkeys]
  exact byKey_keys_nodup

theorem group_eq_of_key {group group' : String × List (Site α)}
    (h : group ∈ sitesByEntity std g items) (h' : group' ∈ sitesByEntity std g items)
    (hkey : group.1 = group'.1) : group = group' :=
  List.inj_on_of_nodup_map sitesByEntity_nodup h h' hkey

theorem group_ne_nil {group : String × List (Site α)} (h : group ∈ sitesByEntity std g items) :
    ∃ s, s ∈ group.2 := by
  obtain ⟨_, hgroup, rfl⟩ := List.mem_map.mp h
  obtain ⟨s, hs, rfl⟩ := mem_byKey.mp hgroup
  exact ⟨s, by simp [std.mem_sort, hs]⟩

/-- The occurrence comes first of what its slot observed at its site. -/
def Leads (std : UnstableSort) (g : Grouping α) (items : List α) (a : α) : Prop :=
  ∃ o, observe std g (observedWith g items a) = some o ∧ o.first = a

theorem leads_first (h : observe std g (observedWith g items a) = some o) :
    Leads std g items o.first := by
  have hmem : o.first ∈ observedWith g items a :=
    (observe_perm h).mem_iff.mp List.mem_cons_self
  obtain ⟨-, hsite, hslot⟩ := mem_observedWith.mp hmem
  exact ⟨o, by rw [observedWith_congr hsite hslot, h], rfl⟩

theorem flatMap_eq_of_unique {β γ : Type} {l : List β} {b : β} {f : β → List γ} (hb : b ∈ l)
    (hnodup : l.Nodup) (hother : ∀ c ∈ l, c ≠ b → f c = []) : l.flatMap f = f b := by
  obtain ⟨before, after, rfl⟩ := List.append_of_mem hb
  obtain ⟨-, hnodup', hdisjoint⟩ := List.nodup_append.mp hnodup
  have hbefore : before.flatMap f = [] := by
    refine List.flatMap_eq_nil_iff.mpr fun c hc => hother c (List.mem_append_left _ hc) ?_
    exact hdisjoint c hc b List.mem_cons_self
  have hafter : after.flatMap f = [] := by
    refine List.flatMap_eq_nil_iff.mpr fun c hc =>
      hother c (List.mem_append_right _ (List.mem_cons_of_mem _ hc)) ?_
    rintro rfl
    exact (List.nodup_cons.mp hnodup').1 hc
  rw [List.flatMap_append, List.flatMap_cons, hbefore, hafter, List.nil_append, List.append_nil]

end

-- ---------------------------------------------------------------------------
-- A merge that succeeds
-- ---------------------------------------------------------------------------

theorem check_bind_ok {β : Type} {errors : List String} {next : Unit → Except (List String) β} {b : β} :
    (check errors >>= next) = .ok b ↔ errors = [] ∧ next () = .ok b := by
  unfold check
  split
  · simp [*, bind, Except.bind]
  · simp [*, bind, Except.bind]

/-- What the merge has checked, and what it returns up to the order. -/
structure Merged (std : UnstableSort) (cases : List TestCaseInfo) (fixtures : List FixtureDeclInfo)
    (out : List TestCaseInfo × List FixtureDeclInfo) : Prop where
  fixtureSites : ∀ s ∈ declarationSites std fixtureGrouping fixtures, fixtureSiteErrors s = []
  inventories : ∀ group ∈ byKey contextKey cases, inventoryErrors std group.2 = []
  caseSites : ∀ s ∈ declarationSites std caseGrouping cases, caseSiteErrors s = []
  caseEntities : ∀ group ∈ sitesByEntity std caseGrouping cases, caseEntityErrors group.2 = []
  outCases : out.1.Perm (canonicalCases std cases)
  outFixtures : out.2.Perm (canonicalFixtures std fixtures)

theorem mergeHeaderDeclarationOccurrences_ok {std : UnstableSort} {cases : List TestCaseInfo}
    {fixtures : List FixtureDeclInfo} {out : List TestCaseInfo × List FixtureDeclInfo}
    (h : mergeHeaderDeclarationOccurrences std cases fixtures = .ok out) :
    Merged std (resolveFreeFixtures cases fixtures).cases fixtures out := by
  unfold mergeHeaderDeclarationOccurrences at h
  simp only [check_bind_ok] at h
  obtain ⟨hfixtureSites, -, -, hinventories, hcaseSites, hcaseEntities, hout⟩ := h
  cases hout
  exact
    { fixtureSites := List.flatMap_eq_nil_iff.mp hfixtureSites
      inventories := List.flatMap_eq_nil_iff.mp hinventories
      caseSites := List.flatMap_eq_nil_iff.mp hcaseSites
      caseEntities := List.flatMap_eq_nil_iff.mp hcaseEntities
      outCases := std.perm _ _
      outFixtures := std.perm _ _ }

section

variable {std : UnstableSort} {cases : List TestCaseInfo} {fixtures : List FixtureDeclInfo}
  {out : List TestCaseInfo × List FixtureDeclInfo}

-- ---------------------------------------------------------------------------
-- Cases
-- ---------------------------------------------------------------------------

theorem Merged.site_semantics (h : Merged std cases fixtures out) {s : Site TestCaseInfo}
    (hs : s ∈ declarationSites std caseGrouping cases) {o : Observed TestCaseInfo}
    (ho : o ∈ s.occurrences) :
    caseSemantics o.all = caseSemantics s.first.all ∧ o.first.entityKey = s.entity caseGrouping := by
  rcases List.mem_cons.mp ho with rfl | hrest
  · exact ⟨rfl, rfl⟩
  · have hnone := List.filterMap_eq_nil_iff.mp (h.caseSites s hs) o hrest
    split at hnone
    · cases hnone
    · rename_i hsame
      push Not at hsame
      exact hsame

theorem caseOwner_mem {sites : List (Site TestCaseInfo)} {owner : Observed TestCaseInfo}
    (h : caseOwner sites = some owner) : ∃ s ∈ sites, owner ∈ s.occurrences := by
  obtain ⟨⟨key, o⟩, hleast, rfl⟩ := Option.map_eq_some_iff.mp h
  obtain ⟨s, hs, ho⟩ := List.mem_flatMap.mp (least_mem hleast)
  obtain ⟨o', ho', heq⟩ := List.mem_map.mp ho
  cases heq
  exact ⟨s, hs, ho'⟩

theorem exists_caseOwner {sites : List (Site TestCaseInfo)} {s : Site TestCaseInfo} (h : s ∈ sites) :
    ∃ owner, caseOwner sites = some owner := by
  have hne : (sites.flatMap fun s => s.occurrences.map fun o => (s.key, o)) ≠ [] := by
    intro hnil
    cases List.flatMap_eq_nil_iff.mp hnil s h
  obtain ⟨o, ho⟩ := exists_least (fun a b => caseOwnerKey a < caseOwnerKey b) hne
  exact ⟨o.2, by rw [caseOwner, ho, Option.map_some]⟩

/-- Each entity has an owner, at one of its sites, with the fingerprints of all
of them. -/
theorem Merged.exists_owner (h : Merged std cases fixtures out) {group : String × List (Site TestCaseInfo)}
    (hgroup : group ∈ sitesByEntity std caseGrouping cases) :
    ∃ owner, caseOwner group.2 = some owner ∧ (∃ s ∈ group.2, owner ∈ s.occurrences) ∧
      ∀ s ∈ group.2, ∀ o ∈ s.occurrences, caseSemantics o.all = caseSemantics owner.all := by
  obtain ⟨s₀, hs₀⟩ := group_ne_nil hgroup
  obtain ⟨owner, howner⟩ := exists_caseOwner hs₀
  refine ⟨owner, howner, caseOwner_mem howner, fun s hs o ho => ?_⟩
  have hsite := (h.site_semantics ((mem_sitesByEntity hgroup).mp hs).1 ho).1
  have herrors := h.caseEntities group hgroup
  rw [caseEntityErrors, howner] at herrors
  have hnone := List.filterMap_eq_nil_iff.mp herrors s hs
  split at hnone
  · cases hnone
  · rename_i hsame
    rw [hsite, not_not.mp hsame]

theorem mem_canonicalCases {c : TestCaseInfo} :
    c ∈ canonicalCases std cases ↔ ∃ group ∈ sitesByEntity std caseGrouping cases,
      ∃ owner, caseOwner group.2 = some owner ∧ ∃ c' ∈ owner.all, mergedCase std c' = c := by
  rw [canonicalCases, List.mem_flatMap]
  refine exists_congr fun group => and_congr_right fun _ => ?_
  rw [ownerCases]
  cases caseOwner group.2 with
  | none => simp
  | some owner => simp

theorem Merged.owner_has (h : Merged std cases fixtures out) {c : TestCaseInfo} (hc : c ∈ cases) :
    ∃ s ∈ declarationSites std caseGrouping cases, s.key = c.declarationSiteKey ∧
      ∃ group ∈ sitesByEntity std caseGrouping cases, group.1 = s.entity caseGrouping ∧
        ∃ owner, caseOwner group.2 = some owner ∧
          ∃ c' ∈ owner.all, resolvedCaseFingerprint c' = resolvedCaseFingerprint c := by
  obtain ⟨s, hs, hkey, o, ho, hobserve⟩ := exists_site std caseGrouping hc
  obtain ⟨group, hgroup, hentity, hmem⟩ := exists_group hs
  obtain ⟨owner, howner, -, hsemantics⟩ := h.exists_owner hgroup
  refine ⟨s, hs, hkey, group, hgroup, hentity, owner, howner, ?_⟩
  have hco : c ∈ o.all := (observe_perm hobserve).mem_iff.mpr (mem_observedWith.mpr ⟨hc, rfl, rfl⟩)
  have hfingerprint : resolvedCaseFingerprint c ∈ caseSemantics owner.all := by
    rw [← hsemantics s hmem o ho]
    exact List.mem_map_of_mem hco
  exact List.mem_map.mp hfingerprint

theorem Merged.owner_observed {group : String × List (Site TestCaseInfo)} {owner : Observed TestCaseInfo}
    (h : Merged std cases fixtures out) (hgroup : group ∈ sitesByEntity std caseGrouping cases)
    (howner : caseOwner group.2 = some owner) :
    Leads std caseGrouping cases owner.first ∧ owner.first.entityKey = group.1 ∧
      ∀ c ∈ owner.all, c ∈ cases ∧ c.declarationSiteKey = owner.first.declarationSiteKey ∧
        (observedWith caseGrouping cases c).Perm owner.all := by
  obtain ⟨s, hs, ho⟩ := caseOwner_mem howner
  obtain ⟨hsite, hentity⟩ := (mem_sitesByEntity hgroup).mp hs
  obtain ⟨a, -, -, hobserve⟩ := observe_of_mem hsite ho
  have hperm := observe_perm hobserve
  have hmem : ∀ c ∈ owner.all, c ∈ cases ∧ c.declarationSiteKey = a.declarationSiteKey ∧
      c.scanSlot = a.scanSlot := fun c hc => mem_observedWith.mp (hperm.mem_iff.mp hc)
  refine ⟨leads_first hobserve, ?_, fun c hc => ?_⟩
  · rw [(h.site_semantics hsite ho).2, hentity]
  · obtain ⟨hc', hkey, hslot⟩ := hmem c hc
    refine ⟨hc', hkey.trans (hmem _ List.mem_cons_self).2.1.symm, ?_⟩
    rw [observedWith_congr hkey hslot]
    exact hperm.symm

theorem Merged.leads_entity (h : Merged std cases fixtures out) {c : TestCaseInfo} (hc : c ∈ cases)
    (hleads : Leads std caseGrouping cases c) {s : Site TestCaseInfo}
    (hs : s ∈ declarationSites std caseGrouping cases) (hkey : s.key = c.declarationSiteKey) :
    c.entityKey = s.entity caseGrouping := by
  obtain ⟨s', hs', hkey', o, ho, hobserve⟩ := exists_site std caseGrouping hc
  have heq : s' = s := site_eq_of_key hs' hs (hkey'.trans hkey.symm)
  subst heq
  obtain ⟨o', hobserve', hfirst⟩ := hleads
  rw [hobserve] at hobserve'
  cases hobserve'
  rw [← hfirst, (h.site_semantics hs ho).2]

-- ---------------------------------------------------------------------------
-- Fixtures
-- ---------------------------------------------------------------------------

theorem Merged.fixture_entity (h : Merged std cases fixtures out) {s : Site FixtureDeclInfo}
    (hs : s ∈ declarationSites std fixtureGrouping fixtures) {o : Observed FixtureDeclInfo}
    (ho : o ∈ s.occurrences) : o.first.entityKey = s.entity fixtureGrouping := by
  rcases List.mem_cons.mp ho with rfl | hrest
  · rfl
  · have hnone := List.filterMap_eq_nil_iff.mp (h.fixtureSites s hs) o hrest
    split at hnone
    · cases hnone
    · rename_i hsame
      push Not at hsame
      exact hsame.1

theorem fixtureOwner_mem {sites : List (Site FixtureDeclInfo)} {owner : FixtureDeclInfo}
    (h : fixtureOwner sites = some owner) : ∃ s ∈ sites, ∃ o ∈ s.occurrences, o.first = owner := by
  obtain ⟨s, hs, ho⟩ := List.mem_flatMap.mp (least_mem h)
  obtain ⟨o, ho', rfl⟩ := List.mem_map.mp ho
  exact ⟨s, hs, o, ho', rfl⟩

theorem exists_fixtureOwner {sites : List (Site FixtureDeclInfo)} {s : Site FixtureDeclInfo}
    (h : s ∈ sites) : ∃ owner, fixtureOwner sites = some owner := by
  refine exists_least _ fun hnil => ?_
  cases List.flatMap_eq_nil_iff.mp hnil s h

theorem Merged.fixtureOwner_spec (h : Merged std cases fixtures out)
    {group : String × List (Site FixtureDeclInfo)} {owner : FixtureDeclInfo}
    (hgroup : group ∈ sitesByEntity std fixtureGrouping fixtures)
    (howner : fixtureOwner group.2 = some owner) :
    owner ∈ fixtures ∧ Leads std fixtureGrouping fixtures owner ∧ owner.entityKey = group.1 := by
  obtain ⟨s, hs, o, ho, rfl⟩ := fixtureOwner_mem howner
  obtain ⟨hsite, hentity⟩ := (mem_sitesByEntity hgroup).mp hs
  obtain ⟨a, -, -, hobserve⟩ := observe_of_mem hsite ho
  have hmem := mem_observedWith.mp ((observe_perm hobserve).mem_iff.mp List.mem_cons_self)
  exact ⟨hmem.1, leads_first hobserve, (h.fixture_entity hsite ho).trans hentity⟩

theorem canonicalFixtures_filter (entity : String) :
    (canonicalFixtures std fixtures).filter (fun f => f.entityKey = entity) =
      (sitesByEntity std fixtureGrouping fixtures).flatMap fun group =>
        ((fixtureOwner group.2).map mergedFixture).toList.filter fun f => f.entityKey = entity := by
  rw [canonicalFixtures, List.filterMap_eq_flatMap_toList, List.filter_flatMap]

theorem Merged.registered_once (h : Merged std cases fixtures out) {f : FixtureDeclInfo}
    (hf : f ∈ fixtures) (hleads : Leads std fixtureGrouping fixtures f) :
    ∃ f', out.2.filter (fun f' => f'.entityKey = f.entityKey) = [f'] := by
  obtain ⟨s, hs, -, o, ho, hobserve⟩ := exists_site std fixtureGrouping hf
  obtain ⟨o', hobserve', hfirst⟩ := hleads
  rw [hobserve] at hobserve'
  cases hobserve'
  obtain ⟨group, hgroup, hkey, hmem⟩ := exists_group hs
  obtain ⟨owner, howner⟩ := exists_fixtureOwner hmem
  have hentity : group.1 = f.entityKey := by
    rw [hkey, ← hfirst, h.fixture_entity hs ho]
  have hfilter := h.outFixtures.filter fun f' => f'.entityKey = f.entityKey
  rw [canonicalFixtures_filter, flatMap_eq_of_unique hgroup (sitesByEntity_nodup.of_map _)] at hfilter
  · refine ⟨mergedFixture owner, ?_⟩
    have hself : (mergedFixture owner).entityKey = f.entityKey :=
      (h.fixtureOwner_spec hgroup howner).2.2.trans hentity
    simpa [howner, hself] using hfilter
  · intro other hother hne
    cases howner' : fixtureOwner other.2 with
    | none => rfl
    | some owner' =>
      have hother' : (mergedFixture owner').entityKey = other.1 :=
        (h.fixtureOwner_spec hother howner').2.2
      have hne' : other.1 ≠ f.entityKey := fun heq =>
        hne (group_eq_of_key hother hgroup (heq.trans hentity.symm))
      simp [hother', hne']

-- ---------------------------------------------------------------------------
-- Names
-- ---------------------------------------------------------------------------

theorem enforceUniqueBaseNames_true {cases' names : List TestCaseInfo}
    (h : enforceUniqueBaseNames std cases' = (true, names)) : names = cases' := by
  unfold enforceUniqueBaseNames at h
  dsimp only at h
  split at h
  · cases h
    rfl
  · cases h

/-- The resolved fingerprints of the cases that have a property. -/
def fingerprintsOf (cases : List TestCaseInfo) (p : TestCaseInfo → Prop) : Set String :=
  {fingerprint | ∃ c ∈ cases, p c ∧ resolvedCaseFingerprint c = fingerprint}

/-- A fingerprint tells the entity and the names it was made from. -/
def Faithful (cases : List TestCaseInfo) : Prop :=
  ∀ c ∈ cases, ∀ d ∈ cases, resolvedCaseFingerprint c = resolvedCaseFingerprint d →
    c.entityKey = d.entityKey ∧ c.qualifiedName = d.qualifiedName ∧ c.baseName = d.baseName

theorem mem_inventoryFor {items : List TestCaseInfo} {fingerprint : String} :
    fingerprint ∈ inventoryFor std items ↔
      ∃ c ∈ items, resolvedCaseFingerprint c = fingerprint := by
  rw [inventoryFor, mem_unique, std.mem_sort, caseSemantics, List.mem_map]

theorem inventory_eq {items : List TestCaseInfo} (h : inventoryErrors std items = [])
    {a b : Nat × List TestCaseInfo} (ha : a ∈ byKey TestCaseInfo.scanSlot items)
    (hb : b ∈ byKey TestCaseInfo.scanSlot items) : inventoryFor std a.2 = inventoryFor std b.2 := by
  have hhead : ∀ x ∈ byKey TestCaseInfo.scanSlot items, ∃ c, x.2.head? = some c := by
    intro x hx
    obtain ⟨c, hc, rfl⟩ := mem_byKey.mp hx
    have hmem : c ∈ items.filter fun b => b.scanSlot = c.scanSlot := by simp [hc]
    exact ⟨_, List.head?_eq_some_head (List.ne_nil_of_mem hmem)⟩
  unfold inventoryErrors at h
  generalize byKey TestCaseInfo.scanSlot items = slots at h ha hb hhead
  cases slots with
  | nil => cases ha
  | cons first rest =>
    have hsame : ∀ x ∈ first :: rest, inventoryFor std x.2 = inventoryFor std first.2 := by
      intro x hx
      rcases List.mem_cons.mp hx with rfl | hrest
      · rfl
      · have hnone := List.filterMap_eq_nil_iff.mp h x hrest
        split at hnone
        · assumption
        · obtain ⟨c, hc⟩ := hhead first List.mem_cons_self
          obtain ⟨d, hd⟩ := hhead x hx
          simp [hc, hd] at hnone
    rw [hsame a ha, hsame b hb]

-- ---------------------------------------------------------------------------
-- The result
-- ---------------------------------------------------------------------------

/-- Cases lose nothing and are registered from one slot and site, fixtures are
registered once, and slots that observed the same agree on it. -/
structure ExactlyOnce (std : UnstableSort) (cases : List TestCaseInfo) (fixtures : List FixtureDeclInfo)
    (outCases : List TestCaseInfo) (outFixtures : List FixtureDeclInfo) : Prop where
  kept : ∀ c ∈ cases, ∃ c' ∈ outCases, resolvedCaseFingerprint c' = resolvedCaseFingerprint c
  oneSlot : ∀ c ∈ cases, ∃ d ∈ cases, d.entityKey = c.entityKey ∧
    (outCases.filter fun c' => c'.entityKey = c.entityKey).Perm
      (((observedWith caseGrouping cases d).filter fun c' => c'.entityKey = c.entityKey).map
        (mergedCase std))
  registeredOnce : ∀ f ∈ fixtures, ∃ f', outFixtures.filter (fun f' => f'.entityKey = f.entityKey) = [f']
  sitesAgree : ∀ c ∈ cases, ∀ d ∈ cases, c.declarationSiteKey = d.declarationSiteKey →
    fingerprintsOf cases (fun c' => c'.declarationSiteKey = c.declarationSiteKey ∧
        c'.scanSlot = c.scanSlot) =
      fingerprintsOf cases fun c' => c'.declarationSiteKey = c.declarationSiteKey ∧
        c'.scanSlot = d.scanSlot
  namesAgree : ∀ c ∈ cases, ∀ d ∈ cases, c.qualifiedName = d.qualifiedName → c.baseName = d.baseName →
    fingerprintsOf cases (fun c' => c'.qualifiedName = c.qualifiedName ∧ c'.baseName = c.baseName ∧
        c'.scanSlot = c.scanSlot) =
      fingerprintsOf cases fun c' => c'.qualifiedName = c.qualifiedName ∧ c'.baseName = c.baseName ∧
        c'.scanSlot = d.scanSlot

def EntitiesLead (std : UnstableSort) (fixtures : List FixtureDeclInfo) : Prop :=
  ∀ f ∈ fixtures, ∃ f' ∈ fixtures, f'.entityKey = f.entityKey ∧ Leads std fixtureGrouping fixtures f'

/-- Sites that show a common entity are led by one entity. -/
def SharedSitesLedAlike (std : UnstableSort) (cases : List TestCaseInfo) : Prop :=
  ∀ c ∈ cases, ∀ d ∈ cases, c.entityKey = d.entityKey →
    ∀ c' ∈ cases, ∀ d' ∈ cases, c'.declarationSiteKey = c.declarationSiteKey →
      d'.declarationSiteKey = d.declarationSiteKey → Leads std caseGrouping cases c' →
        Leads std caseGrouping cases d' → c'.entityKey = d'.entityKey

theorem Merged.kept (h : Merged std cases fixtures out) {c : TestCaseInfo} (hc : c ∈ cases) :
    ∃ c' ∈ out.1, resolvedCaseFingerprint c' = resolvedCaseFingerprint c := by
  obtain ⟨_, -, -, group, hgroup, -, owner, howner, c', hc', hfingerprint⟩ := h.owner_has hc
  refine ⟨mergedCase std c', h.outCases.mem_iff.mpr ?_, hfingerprint⟩
  exact mem_canonicalCases.mpr ⟨group, hgroup, owner, howner, c', hc', rfl⟩

theorem Merged.sitesAgree (h : Merged std cases fixtures out) {c d : TestCaseInfo} (hc : c ∈ cases)
    (hd : d ∈ cases) (hsite : c.declarationSiteKey = d.declarationSiteKey) :
    fingerprintsOf cases (fun c' => c'.declarationSiteKey = c.declarationSiteKey ∧
        c'.scanSlot = c.scanSlot) =
      fingerprintsOf cases fun c' => c'.declarationSiteKey = c.declarationSiteKey ∧
        c'.scanSlot = d.scanSlot := by
  obtain ⟨s, hs, hkey, o, ho, hobserve⟩ := exists_site std caseGrouping hc
  obtain ⟨s', hs', hkey', o', ho', hobserve'⟩ := exists_site std caseGrouping hd
  have hsame : s' = s := site_eq_of_key hs' hs (hkey'.trans (hsite.symm.trans hkey.symm))
  subst hsame
  have hsemantics : caseSemantics o.all = caseSemantics o'.all :=
    (h.site_semantics hs ho).1.trans (h.site_semantics hs ho').1.symm
  have hset : ∀ {a : TestCaseInfo} {o : Observed TestCaseInfo},
      observe std caseGrouping (observedWith caseGrouping cases a) = some o →
        fingerprintsOf cases (fun c' => c'.declarationSiteKey = a.declarationSiteKey ∧
          c'.scanSlot = a.scanSlot) = {f | f ∈ caseSemantics o.all} := by
    intro a o hobserve
    ext fingerprint
    have hperm := (observe_perm hobserve).map resolvedCaseFingerprint
    simp only [fingerprintsOf, Set.mem_ofPred_eq, caseSemantics, hperm.mem_iff, List.mem_map,
      mem_observedWith, caseGrouping, and_assoc]
  rw [hset hobserve, hsemantics, ← hset hobserve', hsite]

theorem contextKey_congr {c d : TestCaseInfo} (hqualified : c.qualifiedName = d.qualifiedName)
    (hbase : c.baseName = d.baseName) : contextKey c = contextKey d := by
  unfold contextKey
  rw [hqualified, hbase]

theorem Merged.namesAgree (h : Merged std cases fixtures out) (hfaithful : Faithful cases)
    {c d : TestCaseInfo} (hc : c ∈ cases) (hd : d ∈ cases)
    (hqualified : c.qualifiedName = d.qualifiedName) (hbase : c.baseName = d.baseName) :
    fingerprintsOf cases (fun c' => c'.qualifiedName = c.qualifiedName ∧ c'.baseName = c.baseName ∧
        c'.scanSlot = c.scanSlot) ⊆
      fingerprintsOf cases fun c' => c'.qualifiedName = c.qualifiedName ∧ c'.baseName = c.baseName ∧
        c'.scanSlot = d.scanSlot := by
  rintro _ ⟨c', hc', ⟨hqualified', hbase', hslot⟩, rfl⟩
  have hkeys : contextKey d = contextKey c := contextKey_congr hqualified.symm hbase.symm
  -- The slots of `c` and `d` in the inventory of their key.
  have hslots : ∀ a ∈ cases, contextKey a = contextKey c →
      (a.scanSlot, (cases.filter fun b => contextKey b = contextKey c).filter fun b =>
        b.scanSlot = a.scanSlot) ∈
        byKey TestCaseInfo.scanSlot (cases.filter fun b => contextKey b = contextKey c) :=
    fun a ha hkey => mem_byKey.mpr ⟨a, List.mem_filter.mpr ⟨ha, decide_eq_true hkey⟩, rfl⟩
  have heq := inventory_eq (h.inventories _ (mem_byKey.mpr ⟨c, hc, rfl⟩)) (hslots c hc rfl)
    (hslots d hd hkeys)
  have hmem : resolvedCaseFingerprint c' ∈ inventoryFor std
      ((cases.filter fun b => contextKey b = contextKey c).filter fun b => b.scanSlot = c.scanSlot) := by
    refine mem_inventoryFor.mpr ⟨c', ?_, rfl⟩
    simp [hc', contextKey_congr hqualified' hbase', hslot]
  rw [heq] at hmem
  obtain ⟨d', hd', hfingerprint⟩ := mem_inventoryFor.mp hmem
  simp only [List.mem_filter, decide_eq_true_eq, and_assoc] at hd'
  obtain ⟨-, hqualified'', hbase''⟩ := hfaithful d' hd'.1 c' hc' hfingerprint
  exact ⟨d', hd'.1, ⟨hqualified''.trans hqualified', hbase''.trans hbase', hd'.2.2⟩, hfingerprint⟩

theorem canonicalCases_filter (entity : String) :
    (canonicalCases std cases).filter (fun c => c.entityKey = entity) =
      (sitesByEntity std caseGrouping cases).flatMap fun group =>
        (ownerCases std group.2).filter fun c => c.entityKey = entity := by
  rw [canonicalCases, List.filter_flatMap]

theorem Merged.oneSlot (h : Merged std cases fixtures out) (hfaithful : Faithful cases)
    (halike : SharedSitesLedAlike std cases) {c : TestCaseInfo} (hc : c ∈ cases) :
    ∃ d ∈ cases, d.entityKey = c.entityKey ∧
      (out.1.filter fun c' => c'.entityKey = c.entityKey).Perm
        (((observedWith caseGrouping cases d).filter fun c' => c'.entityKey = c.entityKey).map
          (mergedCase std)) := by
  obtain ⟨_, -, -, group, hgroup, -, owner, howner, d, hd, hfingerprint⟩ := h.owner_has hc
  obtain ⟨hleads, hgroupKey, hobserved⟩ := h.owner_observed hgroup howner
  obtain ⟨hd', hsite, hperm⟩ := hobserved d hd
  have hentity : d.entityKey = c.entityKey := (hfaithful d hd' c hc hfingerprint).1
  refine ⟨d, hd', hentity, ?_⟩
  have hfilter := h.outCases.filter fun c' => c'.entityKey = c.entityKey
  rw [canonicalCases_filter, flatMap_eq_of_unique hgroup (sitesByEntity_nodup.of_map _),
    ownerCases, howner] at hfilter
  · refine hfilter.trans ?_
    rw [List.filter_map]
    exact (hperm.symm.filter _).map _
  · intro other hother hne
    rw [ownerCases]
    cases howner' : caseOwner other.2 with
    | none => rfl
    | some owner' =>
      obtain ⟨hleads', hgroupKey', hobserved'⟩ := h.owner_observed hother howner'
      simp only [List.filter_eq_nil_iff, List.mem_map, decide_eq_true_eq]
      rintro _ ⟨x, hx, rfl⟩ hx'
      obtain ⟨hxmem, hxsite, -⟩ := hobserved' x hx
      have hled := halike d hd' x hxmem (hentity.trans (Eq.symm hx')) owner.first
        (hobserved _ List.mem_cons_self).1 owner'.first (hobserved' _ List.mem_cons_self).1
        hsite.symm hxsite.symm hleads hleads'
      refine hne (group_eq_of_key hother hgroup ?_)
      rw [← hgroupKey, ← hgroupKey', hled]

theorem Merged.owner_entity (h : Merged std cases fixtures out) (hfaithful : Faithful cases)
    {c : TestCaseInfo} (hc : c ∈ cases) {c' : TestCaseInfo} (hc' : c' ∈ cases)
    (hsite : c'.declarationSiteKey = c.declarationSiteKey) (hleads : Leads std caseGrouping cases c') :
    ∃ s ∈ declarationSites std caseGrouping cases, s.entity caseGrouping = c'.entityKey ∧
      ∃ x, mergedCase std x ∈ out.1 ∧ x.entityKey = c.entityKey ∧ x.declarationSiteKey = s.key := by
  obtain ⟨s, hs, hkey, group, hgroup, hgroupKey, owner, howner, x, hx, hfingerprint⟩ := h.owner_has hc
  obtain ⟨t, ht, ho⟩ := caseOwner_mem howner
  obtain ⟨htsite, htentity⟩ := (mem_sitesByEntity hgroup).mp ht
  obtain ⟨a, -, hkeya, hobserve⟩ := observe_of_mem htsite ho
  obtain ⟨hxmem, hxsite, -⟩ := mem_observedWith.mp ((observe_perm hobserve).mem_iff.mp hx)
  refine ⟨t, htsite, ?_, x, ?_, (hfaithful x hxmem c hc hfingerprint).1, hxsite.trans hkeya⟩
  · rw [htentity, hgroupKey, h.leads_entity hc' hleads hs (hkey.trans hsite.symm)]
  · exact h.outCases.mem_iff.mpr (mem_canonicalCases.mpr ⟨group, hgroup, owner, howner, x, hx, rfl⟩)

theorem ExactlyOnce.led_alike (h : Merged std cases fixtures out) (hfaithful : Faithful cases)
    (honce : ExactlyOnce std cases fixtures out.1 out.2) : SharedSitesLedAlike std cases := by
  intro c hc d hd hentity c' hc' d' hd' hsite hsite' hleads hleads'
  obtain ⟨s, hs, hsentity, x, hx, hxentity, hxsite⟩ := h.owner_entity hfaithful hc hc' hsite hleads
  obtain ⟨t, ht, htentity, y, hy, hyentity, hysite⟩ := h.owner_entity hfaithful hd hd' hsite' hleads'
  obtain ⟨e, he, -, hperm⟩ := honce.oneSlot c hc
  -- Both come from the one site that the cases of the entity come from.
  have hfrom : ∀ z, mergedCase std z ∈ out.1 → z.entityKey = c.entityKey →
      z.declarationSiteKey = e.declarationSiteKey := by
    intro z hz hzentity
    have hmem : mergedCase std z ∈ out.1.filter fun c' => c'.entityKey = c.entityKey :=
      List.mem_filter.mpr ⟨hz, decide_eq_true hzentity⟩
    obtain ⟨w, hw, hmerged⟩ := List.mem_map.mp (hperm.mem_iff.mp hmem)
    obtain ⟨-, hwsite, -⟩ := mem_observedWith.mp (List.mem_of_mem_filter hw)
    have hkey : (mergedCase std w).declarationSiteKey = (mergedCase std z).declarationSiteKey := by
      rw [hmerged]
    exact hkey.symm.trans hwsite
  have hkey : s.key = t.key := by
    rw [← hxsite, ← hysite, hfrom x hx hxentity, hfrom y hy (hyentity.trans hentity.symm)]
  rw [← hsentity, ← htentity, site_eq_of_key hs ht hkey]

theorem ExactlyOnce.entities_lead (h : Merged std cases fixtures out)
    (honce : ExactlyOnce std cases fixtures out.1 out.2) : EntitiesLead std fixtures := by
  intro f hf
  obtain ⟨f', hfilter⟩ := honce.registeredOnce f hf
  have hmem : f' ∈ out.2.filter fun f' => f'.entityKey = f.entityKey := by
    rw [hfilter]
    exact List.mem_singleton_self f'
  obtain ⟨hout, hentity⟩ := List.mem_filter.mp hmem
  obtain ⟨group, hgroup, howner⟩ := List.mem_filterMap.mp (h.outFixtures.mem_iff.mp hout)
  obtain ⟨owner, howner', rfl⟩ := Option.map_eq_some_iff.mp howner
  obtain ⟨hmem, hleads, -⟩ := h.fixtureOwner_spec hgroup howner'
  exact ⟨owner, hmem, of_decide_eq_true hentity, hleads⟩

end

/-- The merge registers everything once if and only if each fixture entity leads
a declaration site and sites with a common entity are led by one. -/
theorem merge_exactly_once_iff (std : UnstableSort) (cases : List TestCaseInfo)
    (fixtures : List FixtureDeclInfo) (out : List TestCaseInfo × List FixtureDeclInfo)
    (names : List TestCaseInfo)
    (hmerge : mergeHeaderDeclarationOccurrences std cases fixtures = .ok out)
    (hnames : enforceUniqueBaseNames std out.1 = (true, names))
    (hfaithful : Faithful (resolveFreeFixtures cases fixtures).cases) :
    ExactlyOnce std (resolveFreeFixtures cases fixtures).cases fixtures names out.2 ↔
      EntitiesLead std fixtures ∧ SharedSitesLedAlike std (resolveFreeFixtures cases fixtures).cases := by
  have h := mergeHeaderDeclarationOccurrences_ok hmerge
  rw [enforceUniqueBaseNames_true hnames]
  constructor
  · intro honce
    exact ⟨honce.entities_lead h, honce.led_alike h hfaithful⟩
  · rintro ⟨hlead, halike⟩
    refine
      { kept := fun c hc => h.kept hc
        oneSlot := fun c hc => h.oneSlot hfaithful halike hc
        registeredOnce := fun f hf => ?_
        sitesAgree := fun c hc d hd hsite => h.sitesAgree hc hd hsite
        namesAgree := fun c hc d hd hqualified hbase => ?_ }
    · obtain ⟨f', hf', hentity, hleads⟩ := hlead f hf
      rw [← hentity]
      exact h.registered_once hf' hleads
    · refine Set.Subset.antisymm (h.namesAgree hfaithful hc hd hqualified hbase) ?_
      have hback := h.namesAgree hfaithful hd hc hqualified.symm hbase.symm
      rw [← hqualified, ← hbase] at hback
      exact hback

/-- A fixture `F` of a header, in a namespace, as a slot sees it. -/
def headerFixture (ns : String) (slot : Nat) : FixtureDeclInfo :=
  { qualifiedName := ns ++ "::F", baseName := "F", namespaceParts := [ns], suiteName := ns
    scope := .suite, filename := "fixture.hpp", line := 1, scanSlot := slot
    declarationSiteKey := "fixture|expansion:1:30|spelling:1:30"
    entityKey := "c:@N@" ++ ns ++ "@S@F", semanticFingerprint := "entity:c:@N@" ++ ns ++ "@S@F" }

/-- A case `a::t` of a header as a slot sees it. -/
def headerCase (slot : Nat) : TestCaseInfo :=
  { qualifiedName := "a::t", displayName := "a/t", baseName := "a/t", filename := "case.hpp"
    suiteName := "a", line := 2, scanSlot := slot, namespaceParts := ["a"]
    declarationSiteKey := "function|expansion:2:40|spelling:2:40", entityKey := "c:@N@a@F@t#"
    semanticFingerprint := "signature:void ()|linkage:4|module:|a::t|a/t|a/t|a" }

/-- A header that two translation units include is registered once. -/
theorem shared_header_registered_once :
    ExactlyOnce insertion
      (resolveFreeFixtures [headerCase 0, headerCase 1] [headerFixture "a" 0, headerFixture "a" 1]).cases
      [headerFixture "a" 0, headerFixture "a" 1] [mergedCase insertion (headerCase 0)]
      [mergedFixture (headerFixture "a" 0)] := by
  refine (merge_exactly_once_iff insertion [headerCase 0, headerCase 1]
    [headerFixture "a" 0, headerFixture "a" 1]
    ([mergedCase insertion (headerCase 0)], [mergedFixture (headerFixture "a" 0)]) _
    (by decide +kernel) (by decide +kernel) ?_).mpr ⟨?_, ?_⟩
  · have hcases : ∀ c ∈ (resolveFreeFixtures [headerCase 0, headerCase 1]
        [headerFixture "a" 0, headerFixture "a" 1]).cases, c.entityKey = "c:@N@a@F@t#" ∧
          c.qualifiedName = "a::t" ∧ c.baseName = "a/t" := by decide +kernel
    intro c hc d hd _
    obtain ⟨hentity, hqualified, hbase⟩ := hcases c hc
    obtain ⟨hentity', hqualified', hbase'⟩ := hcases d hd
    exact ⟨hentity.trans hentity'.symm, hqualified.trans hqualified'.symm, hbase.trans hbase'.symm⟩
  · have hentities : ∀ f ∈ [headerFixture "a" 0, headerFixture "a" 1],
        f.entityKey = (headerFixture "a" 0).entityKey := by decide +kernel
    intro f hf
    refine ⟨headerFixture "a" 0, List.mem_cons_self, (hentities f hf).symm, ?_⟩
    exact ⟨⟨headerFixture "a" 0, []⟩, by decide +kernel, rfl⟩
  · have hentities : ∀ c ∈ (resolveFreeFixtures [headerCase 0, headerCase 1]
        [headerFixture "a" 0, headerFixture "a" 1]).cases, c.entityKey = "c:@N@a@F@t#" := by
      decide +kernel
    intro _ _ _ _ _ c hc d hd _ _ _ _
    rw [hentities c hc, hentities d hd]

/-- A header that one translation unit includes into two namespaces loses a
fixture. -/
theorem second_inclusion_loses_fixture :
    ∃ (fixtures : List FixtureDeclInfo) (out : List TestCaseInfo × List FixtureDeclInfo),
      mergeHeaderDeclarationOccurrences insertion [] fixtures = .ok out ∧
      enforceUniqueBaseNames insertion out.1 = (true, out.1) ∧
      (∃ f ∈ fixtures, ∀ f' ∈ out.2, f'.entityKey ≠ f.entityKey) ∧
      ¬ ExactlyOnce insertion (resolveFreeFixtures [] fixtures).cases fixtures out.1 out.2 := by
  have hlost : ∀ f' ∈ [mergedFixture (headerFixture "a" 0)],
      f'.entityKey ≠ (headerFixture "b" 0).entityKey := by decide +kernel
  refine ⟨[headerFixture "a" 0, headerFixture "b" 0], ([], [mergedFixture (headerFixture "a" 0)]),
    by decide +kernel, by decide +kernel, ⟨headerFixture "b" 0, by decide +kernel, hlost⟩, ?_⟩
  intro honce
  obtain ⟨f', hf'⟩ := honce.registeredOnce (headerFixture "b" 0) (by decide +kernel)
  have hmem : f' ∈ [mergedFixture (headerFixture "a" 0)] ∧
      f'.entityKey = (headerFixture "b" 0).entityKey := by
    have hself := List.mem_singleton_self f'
    rw [← hf', List.mem_filter, decide_eq_true_eq] at hself
    exact hself
  exact hlost f' hmem.1 hmem.2

end Gentest.Codegen
