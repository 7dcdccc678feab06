import Gentest.Codegen.ExactlyOnce
import Gentest.Runner.KindSelection

/-!
# Names of cases

The name that users see is the base name, the suite with the name of the case,
followed by the template arguments and the values of one instantiation. Only base
names are kept unique, and cases declared at one line count as one declaration.
-/

namespace Gentest.Codegen

open Sorting Runner

-- ---------------------------------------------------------------------------
-- Collecting cases
-- ---------------------------------------------------------------------------

/-- An annotated function that is accepted apart from its name, with its
instantiations: template arguments in order, and the expressions for the value
parameters. -/
structure CaseSource where
  qualified : String
  suitePath : String
  caseName : String
  named : caseName ≠ ""
  isFunctionTemplate : Bool
  filename : String
  line : Nat
  /-- Where the declaration begins, as it is spelled. -/
  beginLocation : String
  /-- The rest of its record. -/
  info : TestCaseInfo
  instantiations : List (List String × List String)

def CaseSource.finalBase (d : CaseSource) : String :=
  if d.suitePath = "" then d.caseName else d.suitePath ++ "/" ++ d.caseName

def CaseSource.makeQualified (d : CaseSource) (args : List String) : String :=
  if d.isFunctionTemplate then d.qualified ++ "<" ++ ", ".intercalate args ++ ">" else d.qualified

def CaseSource.displaySuffix (d : CaseSource) (args : List String) (displayArgs : String) : String :=
  (if d.isFunctionTemplate then "<" ++ ",".intercalate args ++ ">" else "") ++
    (if displayArgs = "" then "" else "(" ++ displayArgs ++ ")")

def CaseSource.makeDisplay (d : CaseSource) (args : List String) (displayArgs : String) : String :=
  d.finalBase ++ d.displaySuffix args displayArgs

structure TestCaseCollector where
  uniqueBaseLocations : List (String × String) := []
  seen : List String := []
  out : List TestCaseInfo := []
  errors : List String := []

def CaseSource.caseInfo (d : CaseSource) (inst : List String × List String) : TestCaseInfo :=
  { d.info with
    qualifiedName := d.makeQualified inst.1
    displayName := d.makeDisplay inst.1 (", ".intercalate inst.2)
    baseName := d.finalBase
    filename := d.filename
    line := d.line
    callArguments := ", ".intercalate inst.2 }

def TestCaseInfo.seenKey (c : TestCaseInfo) : String :=
  c.qualifiedName ++ "#" ++ c.displayName ++ "@" ++ c.filename ++ ":" ++ toString c.line

def TestCaseCollector.addCase (d : CaseSource) (collector : TestCaseCollector)
    (inst : List String × List String) : TestCaseCollector :=
  let info := d.caseInfo inst
  if info.seenKey ∈ collector.seen then collector
  else { collector with seen := info.seenKey :: collector.seen, out := collector.out ++ [info] }

def TestCaseCollector.run (headerDeclarationRegistration : Bool) (collector : TestCaseCollector)
    (d : CaseSource) : TestCaseCollector :=
  if headerDeclarationRegistration then d.instantiations.foldl (addCase d) collector
  else
    match collector.uniqueBaseLocations.lookup d.finalBase with
    | some first =>
      { collector with
        errors := collector.errors ++
          [s!"gentest_codegen: duplicate test name '{d.finalBase}' at {d.beginLocation} (previously declared at {first})"] }
    | none =>
      d.instantiations.foldl (addCase d)
        { collector with
          uniqueBaseLocations := (d.finalBase, d.beginLocation) :: collector.uniqueBaseLocations }

def collectCases (headerDeclarationRegistration : Bool) (decls : List CaseSource) : TestCaseCollector :=
  decls.foldl (TestCaseCollector.run headerDeclarationRegistration) {}

def collectSlots (headerDeclarationRegistration : Bool) (slots : List (List CaseSource)) :
    Option (List TestCaseInfo) :=
  if slots.all fun decls => (collectCases headerDeclarationRegistration decls).errors.isEmpty then
    some (slots.flatMap fun decls => (collectCases headerDeclarationRegistration decls).out)
  else none

/-- The cases that are emitted: of all slots, merged when registered from headers,
once their names are accepted. -/
def emittedCases (std : UnstableSort) (headerDeclarationRegistration : Bool)
    (slots : List (List CaseSource)) (fixtures : List FixtureDeclInfo) : Option (List TestCaseInfo) :=
  match collectSlots headerDeclarationRegistration slots with
  | none => none
  | some cases =>
    let merged :=
      if headerDeclarationRegistration then
        match mergeHeaderDeclarationOccurrences std cases fixtures with
        | .ok out => some out.1
        | .error _ => none
      else some cases
    match merged with
    | none => none
    | some cases =>
      match enforceUniqueBaseNames std cases with
      | (true, cases) => some cases
      | (false, _) => none

def TestCaseInfo.listed (c : TestCaseInfo) : Selector.TaggedCase where
  name := c.displayName
  isBenchmark := c.isBenchmark
  isJitter := c.isJitter
  tags := c.tags

/-- No other emitted case of the kind asked for has the display name. -/
def OnlyDisplayed (emitted : List TestCaseInfo) (kind : KindFilter) (name : String) (i : Nat) : Prop :=
  ∀ j c, emitted[j]? = some c → c.displayName = name → caseMatchesKind c.listed.toListedCase kind = true → j = i

-- ---------------------------------------------------------------------------
-- What a collector puts out
-- ---------------------------------------------------------------------------

/-- The names and the place of a case are those of an instantiation. -/
def Instantiates (d : CaseSource) (inst : List String × List String) (c : TestCaseInfo) : Prop :=
  c.qualifiedName = d.makeQualified inst.1 ∧
    c.displayName = d.makeDisplay inst.1 (", ".intercalate inst.2) ∧ c.baseName = d.finalBase ∧
      c.filename = d.filename ∧ c.line = d.line

theorem finalBase_ne_empty (d : CaseSource) : d.finalBase ≠ "" := by
  unfold CaseSource.finalBase
  split
  · exact d.named
  · intro hempty
    exact d.named (String.append_eq_empty_iff.mp hempty).2

theorem addCase_out {d : CaseSource} {collector : TestCaseCollector} {insts : List (List String × List String)}
    {c : TestCaseInfo} (h : c ∈ (insts.foldl (TestCaseCollector.addCase d) collector).out) :
    c ∈ collector.out ∨ ∃ inst ∈ insts, c = d.caseInfo inst := by
  induction insts generalizing collector with
  | nil => exact .inl h
  | cons inst insts ih =>
    rcases ih h with hout | ⟨inst', hinst', rfl⟩
    · unfold TestCaseCollector.addCase at hout
      dsimp only at hout
      split at hout
      · exact .inl hout
      · rcases List.mem_append.mp hout with hout | hnew
        · exact .inl hout
        · exact .inr ⟨inst, List.mem_cons_self, List.mem_singleton.mp hnew⟩
    · exact .inr ⟨inst', List.mem_cons_of_mem _ hinst', rfl⟩

theorem run_out {header : Bool} {d : CaseSource} {collector : TestCaseCollector} {c : TestCaseInfo}
    (h : c ∈ (collector.run header d).out) :
    c ∈ collector.out ∨ ∃ inst ∈ d.instantiations, c = d.caseInfo inst := by
  unfold TestCaseCollector.run at h
  split at h
  · exact addCase_out h
  · split at h
    · exact .inl h
    · rcases addCase_out h with hout | hinst
      · exact .inl hout
      · exact .inr hinst

theorem collectCases_out {header : Bool} {decls : List CaseSource} {c : TestCaseInfo}
    (h : c ∈ (collectCases header decls).out) : ∃ d inst, Instantiates d inst c := by
  have hfold : ∀ (decls : List CaseSource) (collector : TestCaseCollector),
      c ∈ (decls.foldl (TestCaseCollector.run header) collector).out →
        c ∈ collector.out ∨ ∃ d inst, Instantiates d inst c := by
    intro decls
    induction decls with
    | nil => exact fun _ h => .inl h
    | cons d decls ih =>
      intro collector h
      rcases ih _ h with hout | hrest
      · rcases run_out hout with hout | ⟨inst, -, rfl⟩
        · exact .inl hout
        · exact .inr ⟨d, inst, rfl, rfl, rfl, rfl, rfl⟩
      · exact .inr hrest
  rcases hfold decls {} h with hnone | hsome
  · cases hnone
  · exact hsome

theorem merge_out {std : UnstableSort} {cases : List TestCaseInfo} {fixtures : List FixtureDeclInfo}
    {out : List TestCaseInfo × List FixtureDeclInfo}
    (h : mergeHeaderDeclarationOccurrences std cases fixtures = .ok out) {c : TestCaseInfo}
    (hc : c ∈ out.1) : ∃ c' ∈ cases, c.qualifiedName = c'.qualifiedName ∧
      c.displayName = c'.displayName ∧ c.baseName = c'.baseName ∧ c.filename = c'.filename ∧
        c.line = c'.line := by
  have hmerged := mergeHeaderDeclarationOccurrences_ok h
  obtain ⟨group, hgroup, owner, howner, x, hx, rfl⟩ :=
    mem_canonicalCases.mp (hmerged.outCases.mem_iff.mp hc)
  obtain ⟨hmem, -, -⟩ := (hmerged.owner_observed hgroup howner).2.2 x hx
  obtain ⟨c', hc', rfl⟩ := List.mem_map.mp hmem
  refine ⟨c', hc', ?_⟩
  unfold resolveTest
  split <;> exact ⟨rfl, rfl, rfl, rfl, rfl⟩

-- ---------------------------------------------------------------------------
-- One collector
-- ---------------------------------------------------------------------------

/-- What holds of a collector that checks names: a base name has one place, and no
two cases share their qualified name, display name and place. -/
structure NamesChecked (collector : TestCaseCollector) : Prop where
  keys : collector.out.Pairwise fun a b => a.seenKey ≠ b.seenKey
  seen : ∀ c ∈ collector.out, c.seenKey ∈ collector.seen
  bases : ∀ c ∈ collector.out, ∃ first, collector.uniqueBaseLocations.lookup c.baseName = some first
  places : ∀ a ∈ collector.out, ∀ b ∈ collector.out, a.baseName = b.baseName →
    a.filename = b.filename ∧ a.line = b.line

theorem namesChecked_addCase {d : CaseSource} {collector : TestCaseCollector}
    (inst : List String × List String) {first : String} (h : NamesChecked collector)
    (hbase : collector.uniqueBaseLocations.lookup d.finalBase = some first)
    (hplace : ∀ c ∈ collector.out, c.baseName = d.finalBase → c.filename = d.filename ∧ c.line = d.line) :
    NamesChecked (collector.addCase d inst) ∧
      (collector.addCase d inst).uniqueBaseLocations = collector.uniqueBaseLocations ∧
      ∀ c ∈ (collector.addCase d inst).out, c.baseName = d.finalBase →
        c.filename = d.filename ∧ c.line = d.line := by
  unfold TestCaseCollector.addCase
  dsimp only
  split
  · exact ⟨h, rfl, hplace⟩
  · rename_i hnew
    have hmem : ∀ {c}, c ∈ collector.out ++ [d.caseInfo inst] →
        c ∈ collector.out ∨ c = d.caseInfo inst := fun hc =>
      (List.mem_append.mp hc).imp_right List.mem_singleton.mp
    refine ⟨⟨?_, fun c hc => ?_, fun c hc => ?_, fun a ha b hb hbases => ?_⟩, rfl, fun c hc hc' => ?_⟩
    · refine List.pairwise_append.mpr ⟨h.keys, List.pairwise_singleton _ _, fun a ha b hb => ?_⟩
      rw [List.mem_singleton.mp hb]
      intro heq
      exact hnew (heq ▸ h.seen a ha)
    · rcases hmem hc with hc | rfl
      · exact List.mem_cons_of_mem _ (h.seen c hc)
      · exact List.mem_cons_self
    · rcases hmem hc with hc | rfl
      · exact h.bases c hc
      · exact ⟨first, hbase⟩
    · rcases hmem ha with ha | rfl
      · rcases hmem hb with hb | rfl
        · exact h.places a ha b hb hbases
        · exact hplace a ha hbases
      · rcases hmem hb with hb | rfl
        · obtain ⟨hfile, hline⟩ := hplace b hb hbases.symm
          exact ⟨hfile.symm, hline.symm⟩
        · exact ⟨rfl, rfl⟩
    · rcases hmem hc with hc | rfl
      · exact hplace c hc hc'
      · exact ⟨rfl, rfl⟩

theorem namesChecked_run {d : CaseSource} {collector : TestCaseCollector} (h : NamesChecked collector) :
    NamesChecked (collector.run false d) := by
  have hfold : ∀ (insts : List (List String × List String)) (collector : TestCaseCollector) first,
      NamesChecked collector → collector.uniqueBaseLocations.lookup d.finalBase = some first →
      (∀ c ∈ collector.out, c.baseName = d.finalBase → c.filename = d.filename ∧ c.line = d.line) →
        NamesChecked (insts.foldl (TestCaseCollector.addCase d) collector) := by
    intro insts
    induction insts with
    | nil => exact fun _ _ h _ _ => h
    | cons inst insts ih =>
      intro collector first h hbase hplace
      obtain ⟨h', hbases, hplace'⟩ := namesChecked_addCase inst h hbase hplace
      exact ih _ first h' (by rw [hbases, hbase]) hplace'
  unfold TestCaseCollector.run
  rw [if_neg Bool.false_ne_true]
  split
  · exact ⟨h.keys, h.seen, h.bases, h.places⟩
  · rename_i hnone
    refine hfold _ _ d.beginLocation ⟨h.keys, h.seen, fun c hc => ?_, h.places⟩ (by simp) fun c hc hbase => ?_
    · obtain ⟨first, hfirst⟩ := h.bases c hc
      have hne : (c.baseName == d.finalBase) = false := by
        rw [beq_eq_false_iff_ne]
        rintro heq
        rw [heq, hnone] at hfirst
        cases hfirst
      exact ⟨first, by rw [List.lookup_cons, hne]; exact hfirst⟩
    · obtain ⟨first, hfirst⟩ := h.bases c hc
      rw [hbase, hnone] at hfirst
      cases hfirst

theorem namesChecked_collectCases (decls : List CaseSource) : NamesChecked (collectCases false decls) := by
  have hfold : ∀ (decls : List CaseSource) collector, NamesChecked collector →
      NamesChecked (decls.foldl (TestCaseCollector.run false) collector) := by
    intro decls
    induction decls with
    | nil => exact fun _ h => h
    | cons d decls ih => exact fun collector h => ih _ (namesChecked_run h)
  exact hfold decls {} ⟨.nil, fun _ h => (nomatch h), fun _ h => (nomatch h), fun _ h => (nomatch h)⟩

-- ---------------------------------------------------------------------------
-- Base names
-- ---------------------------------------------------------------------------

theorem visit_lookup {scan : NameScan} {item : TestCaseInfo × Nat} {base first : String}
    (h : scan.firstLocation.lookup base = some first) :
    (scan.visit item).firstLocation.lookup base = some first := by
  unfold NameScan.visit
  dsimp only
  split
  · exact h
  · split
    · rename_i hnone
      have hne : (base == item.1.baseName) = false := by
        rw [beq_eq_false_iff_ne]
        rintro rfl
        rw [hnone] at h
        cases h
      rw [List.lookup_cons, hne]
      exact h
    · split
      · exact h
      · split <;> exact h

theorem visit_dropped {scan : NameScan} {item : TestCaseInfo × Nat}
    (h : (scan.visit item).dropped = []) :
    scan.dropped = [] ∧ (item.1.baseName ≠ "" →
      (scan.visit item).firstLocation.lookup item.1.baseName = some item.1.location) := by
  unfold NameScan.visit at h ⊢
  dsimp only at h ⊢
  split at h
  · rename_i hempty
    exact ⟨h, fun hne => absurd hempty hne⟩
  · rename_i hne
    split at h
    · rename_i hnone
      refine ⟨h, fun _ => ?_⟩
      simp [hne]
    · rename_i first hfirst
      split at h
      · rename_i hsame
        refine ⟨h, fun _ => ?_⟩
        simp [hne, hfirst, hsame]
      · split at h <;> cases h

theorem scan_fold {items : List (TestCaseInfo × Nat)} {scan : NameScan}
    (h : (items.foldl NameScan.visit scan).dropped = []) :
    (∀ base first, scan.firstLocation.lookup base = some first →
      (items.foldl NameScan.visit scan).firstLocation.lookup base = some first) ∧
    scan.dropped = [] ∧ ∀ item ∈ items, item.1.baseName ≠ "" →
      (items.foldl NameScan.visit scan).firstLocation.lookup item.1.baseName = some item.1.location := by
  induction items generalizing scan with
  | nil => exact ⟨fun _ _ h => h, h, fun _ h => (nomatch h)⟩
  | cons item items ih =>
    obtain ⟨hkept, hdropped, hrest⟩ := ih h
    obtain ⟨hdropped', hself⟩ := visit_dropped hdropped
    refine ⟨fun base first hfirst => hkept base first (visit_lookup hfirst), hdropped', ?_⟩
    exact List.forall_mem_cons.mpr ⟨fun hne => hkept _ _ (hself hne), hrest⟩

theorem enforceUniqueBaseNames_location {std : UnstableSort} {cases names : List TestCaseInfo}
    (h : enforceUniqueBaseNames std cases = (true, names)) {a b : TestCaseInfo} (ha : a ∈ cases)
    (hb : b ∈ cases) (hbase : a.baseName = b.baseName) (hne : a.baseName ≠ "") :
    a.location = b.location := by
  have hdropped : (scanNames std cases).dropped = [] := by
    unfold enforceUniqueBaseNames at h
    dsimp only at h
    split at h
    · rename_i hempty
      exact List.isEmpty_iff.mp hempty
    · cases h
  have hitem : ∀ c ∈ cases, ∃ k, (c, k) ∈ std.sort (fun a b => a.1.nameOrder < b.1.nameOrder) cases.zipIdx := by
    intro c hc
    obtain ⟨k, hk⟩ := List.mem_iff_getElem?.mp hc
    exact ⟨k, std.mem_sort.mpr (List.mk_mem_zipIdx_iff_getElem?.mpr hk)⟩
  obtain ⟨-, -, hlocations⟩ := scan_fold hdropped
  obtain ⟨k, hk⟩ := hitem a ha
  obtain ⟨j, hj⟩ := hitem b hb
  have hfirst := hlocations _ hk hne
  have hsecond := hlocations _ hj (hbase ▸ hne)
  dsimp only at hfirst hsecond
  rw [hbase, hsecond] at hfirst
  exact (Option.some.inj hfirst).symm

-- ---------------------------------------------------------------------------
-- Display names
-- ---------------------------------------------------------------------------

/-- The second name goes on after the first as if with arguments. -/
def ContinuesWithArgs (x y : String) : Prop :=
  ∃ c rest, (c = '<' ∨ c = '(') ∧ y.toList = x.toList ++ c :: rest

theorem displaySuffix_starts (d : CaseSource) (args : List String) (displayArgs : String) :
    (d.displaySuffix args displayArgs).toList = [] ∨
      ∃ c rest, (c = '<' ∨ c = '(') ∧ (d.displaySuffix args displayArgs).toList = c :: rest := by
  have hcons : ∀ (open_ : String) (c : Char) (text : String), open_.toList = [c] →
      (open_ ++ text).toList = c :: text.toList := by
    intro open_ c text hopen
    rw [String.toList_append, hopen]
    rfl
  unfold CaseSource.displaySuffix
  split
  · rw [String.append_assoc, String.append_assoc]
    exact .inr ⟨'<', _, .inl rfl, hcons "<" '<' _ (by decide)⟩
  · split
    · exact .inl (by decide)
    · rw [String.empty_append, String.append_assoc]
      exact .inr ⟨'(', _, .inr rfl, hcons "(" '(' _ (by decide)⟩

/-- Names with arguments that are alike have one base, or one base goes on as if
with arguments. -/
theorem base_of_display {x y s t : List Char} (h : x ++ s = y ++ t)
    (hs : s = [] ∨ ∃ c rest, (c = '<' ∨ c = '(') ∧ s = c :: rest)
    (ht : t = [] ∨ ∃ c rest, (c = '<' ∨ c = '(') ∧ t = c :: rest) :
    x = y ∨ (∃ c rest, (c = '<' ∨ c = '(') ∧ y = x ++ c :: rest) ∨
      ∃ c rest, (c = '<' ∨ c = '(') ∧ x = y ++ c :: rest := by
  rcases List.append_eq_append_iff.mp h with ⟨more, hy, hs'⟩ | ⟨more, hx, ht'⟩
  · cases more with
    | nil => exact .inl (by simpa using hy.symm)
    | cons c more =>
      refine .inr (.inl ⟨c, more, ?_, hy⟩)
      rcases hs with rfl | ⟨c', rest, hc', rfl⟩
      · cases hs'
      · obtain ⟨rfl, -⟩ := List.cons.inj hs'
        exact hc'
  · cases more with
    | nil => exact .inl (by simpa using hx)
    | cons c more =>
      refine .inr (.inr ⟨c, more, ?_, hx⟩)
      rcases ht with rfl | ⟨c', rest, hc', rfl⟩
      · cases ht'
      · obtain ⟨rfl, -⟩ := List.cons.inj ht'
        exact hc'

theorem emittedCases_some {std : UnstableSort} {header : Bool} {slots : List (List CaseSource)}
    {fixtures : List FixtureDeclInfo} {emitted : List TestCaseInfo}
    (h : emittedCases std header slots fixtures = some emitted) :
    enforceUniqueBaseNames std emitted = (true, emitted) ∧
      ∀ c ∈ emitted, ∃ d inst, Instantiates d inst c := by
  unfold emittedCases at h
  split at h
  · cases h
  · rename_i cases hcollect
    have hcases : ∀ c ∈ cases, ∃ d inst, Instantiates d inst c := by
      unfold collectSlots at hcollect
      split at hcollect
      · cases hcollect
        intro c hc
        obtain ⟨decls, -, hc⟩ := List.mem_flatMap.mp hc
        exact collectCases_out hc
      · cases hcollect
    dsimp only at h
    split at h
    · cases h
    · rename_i merged hmerged
      have hmerged' : ∀ c ∈ merged, ∃ d inst, Instantiates d inst c := by
        split at hmerged
        · split at hmerged
          · rename_i out hout
            cases hmerged
            intro c hc
            obtain ⟨c', hc', hqualified, hdisplay, hbase, hfile, hline⟩ := merge_out hout hc
            obtain ⟨d, inst, hinst⟩ := hcases c' hc'
            refine ⟨d, inst, ?_⟩
            rw [Instantiates, hqualified, hdisplay, hbase, hfile, hline]
            exact hinst
          · cases hmerged
        · cases hmerged
          exact hcases
      split at h
      · rename_i names henforce
        cases h
        have hsame := enforceUniqueBaseNames_true henforce
        subst hsame
        exact ⟨henforce, hmerged'⟩
      · cases h

/-- Emitted cases with one base name are declared at one line; display names are
alike only for these or where one base name goes on as if with arguments; and `--run`
with a display name selects its case, unless another of the kind has the name or the
case is a death test that is left out. -/
theorem display_names_follow_bases (std : UnstableSort) (header : Bool) (slots : List (List CaseSource))
    (fixtures : List FixtureDeclInfo) (emitted : List TestCaseInfo)
    (h : emittedCases std header slots fixtures = some emitted) :
    (∀ a ∈ emitted, ∀ b ∈ emitted, a.baseName = b.baseName → a.location = b.location) ∧
    (∀ a ∈ emitted, ∀ b ∈ emitted, a.displayName = b.displayName →
      a.baseName = b.baseName ∨ ContinuesWithArgs a.baseName b.baseName ∨
        ContinuesWithArgs b.baseName a.baseName) ∧
    (header = false → ∀ decls ∈ slots, (collectCases false decls).out.Pairwise fun a b =>
      a.baseName = b.baseName → a.displayName = b.displayName → a.qualifiedName ≠ b.qualifiedName) ∧
    ∀ (opt : Selector.CliOptions) (i : Nat) (c : TestCaseInfo), emitted[i]? = some c →
      opt.runExact = some c.displayName → caseMatchesKind c.listed.toListedCase opt.kind = true →
      (OnlyDisplayed emitted opt.kind c.displayName i →
        (opt.includeDeath = true ∨ Selector.hasTagCi c.listed "death" = false →
          (Selector.selectCases (emitted.map TestCaseInfo.listed) opt).status = .ok ∧
            (Selector.selectCases (emitted.map TestCaseInfo.listed) opt).idxs = [i]) ∧
        (¬(opt.includeDeath = true ∨ Selector.hasTagCi c.listed "death" = false) →
          (Selector.selectCases (emitted.map TestCaseInfo.listed) opt).status = .deathExcludedExact ∧
            (Selector.selectCases (emitted.map TestCaseInfo.listed) opt).idxs = [])) ∧
      (¬OnlyDisplayed emitted opt.kind c.displayName i →
        (Selector.selectCases (emitted.map TestCaseInfo.listed) opt).status = .ambiguous) := by
  obtain ⟨henforce, hinst⟩ := emittedCases_some h
  refine ⟨fun a ha b hb hbase => ?_, fun a ha b hb hdisplay => ?_, fun _ decls _ => ?_,
    fun opt i c hc hexact hkind => ?_⟩
  · obtain ⟨d, inst, -, -, hbase', -⟩ := hinst a ha
    exact enforceUniqueBaseNames_location henforce ha hb hbase (hbase' ▸ finalBase_ne_empty d)
  · obtain ⟨d, inst, -, hdisplay₁, hbase₁, -⟩ := hinst a ha
    obtain ⟨d', inst', -, hdisplay₂, hbase₂, -⟩ := hinst b hb
    have hlists := congrArg String.toList (hdisplay₁.symm.trans (hdisplay.trans hdisplay₂))
    rw [CaseSource.makeDisplay, CaseSource.makeDisplay, String.toList_append, String.toList_append] at hlists
    rcases base_of_display hlists (displaySuffix_starts d _ _) (displaySuffix_starts d' _ _) with
      heq | hmore | hmore
    · exact .inl (by rw [hbase₁, hbase₂, String.toList_inj.mp heq])
    · exact .inr (.inl (by rw [hbase₁, hbase₂]; exact hmore))
    · exact .inr (.inr (by rw [hbase₁, hbase₂]; exact hmore))
  · have hchecked := namesChecked_collectCases decls
    refine hchecked.keys.imp_of_mem fun {a b} ha hb hkeys hbase hdisplay hqualified => hkeys ?_
    obtain ⟨hfile, hline⟩ := hchecked.places a ha b hb hbase
    rw [TestCaseInfo.seenKey, TestCaseInfo.seenKey, hqualified, hdisplay, hfile, hline]
  · have hlisted : (emitted.map TestCaseInfo.listed)[i]? = some c.listed := by
      rw [List.getElem?_map, hc]
      rfl
    have honly : OnlyNamed ((emitted.map TestCaseInfo.listed).map (·.toListedCase)) opt.kind c.listed.name i ↔
        OnlyDisplayed emitted opt.kind c.displayName i := by
      constructor
      · intro hall j c' hc' hname hkind'
        exact hall j c'.listed.toListedCase (by simp [hc']) hname hkind'
      · intro hall j c' hc' hname hkind'
        rw [List.getElem?_map, List.getElem?_map] at hc'
        obtain ⟨tagged, htagged, rfl⟩ := Option.map_eq_some_iff.mp hc'
        obtain ⟨x, hx, rfl⟩ := Option.map_eq_some_iff.mp htagged
        exact hall j x hx hname hkind'
    rw [← honly]
    exact Selector.selectCases_name hlisted hexact hkind

def valueCase (name value : String) (hnamed : name ≠ "") (line : Nat) : CaseSource where
  qualified := "test_" ++ toString line
  suitePath := ""
  caseName := name
  named := hnamed
  isFunctionTemplate := false
  filename := "cases.cpp"
  line := line
  beginLocation := "cases.cpp:" ++ toString line
  info := { qualifiedName := "" }
  instantiations := [([], if value = "" then [] else [value])]

theorem value_cases_follow_bases :
    ∃ emitted, emittedCases insertion false [[valueCase "a" "1" (by decide) 1, valueCase "b" "1" (by decide) 2]] [] =
        some emitted ∧ emitted.map TestCaseInfo.displayName = ["a(1)", "b(1)"] ∧
      ∀ a ∈ emitted, ∀ b ∈ emitted, a.baseName = b.baseName → a.location = b.location := by
  have hnames : (emittedCases insertion false
      [[valueCase "a" "1" (by decide) 1, valueCase "b" "1" (by decide) 2]] []).map
        (List.map TestCaseInfo.displayName) = some ["a(1)", "b(1)"] := by
    decide +kernel
  obtain ⟨emitted, hemitted, hmap⟩ := Option.map_eq_some_iff.mp hnames
  exact ⟨emitted, hemitted, hmap, (display_names_follow_bases _ _ _ _ _ hemitted).1⟩

/-- A name that is written like the arguments of another. -/
theorem written_argument_is_ambiguous :
    ∃ slots emitted, emittedCases insertion false slots [] = some emitted ∧
      emitted.map TestCaseInfo.displayName = ["a(1)", "a(1)"] ∧
      ¬ (emitted.map TestCaseInfo.displayName).Nodup ∧
      (Selector.selectCases (emitted.map TestCaseInfo.listed) { runExact := some "a(1)" }).status = .ambiguous := by
  have hrun : (emittedCases insertion false
      [[valueCase "a" "1" (by decide) 1, valueCase "a(1)" "" (by decide) 2]] []).map
        (fun emitted => (emitted.map TestCaseInfo.displayName,
          (Selector.selectCases (emitted.map TestCaseInfo.listed) { runExact := some "a(1)" }).status)) =
      some (["a(1)", "a(1)"], .ambiguous) := by
    decide +kernel
  obtain ⟨emitted, hemitted, heq⟩ := Option.map_eq_some_iff.mp hrun
  obtain ⟨hnames, hselect⟩ := Prod.mk.inj heq
  refine ⟨_, emitted, hemitted, hnames, ?_, hselect⟩
  rw [hnames]
  decide

end Gentest.Codegen
