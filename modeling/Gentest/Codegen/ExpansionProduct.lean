import Gentest.Codegen.ParameterExpansion
import Gentest.Lib.Grouping

/-!
# Expansion is a product

What the visitors emit is a case for each element of the product of template
combinations, pack rows and scalar values, in this order. Of cases that share the text
of their names only the first is kept, so the expansion is the product without
repeated names exactly when the text tells different names apart.
-/

namespace Gentest.Codegen

open Visits Fallible

-- ---------------------------------------------------------------------------
-- The product
-- ---------------------------------------------------------------------------

structure Combination where
  template : List (List Char)
  values : Bindings

def packBindings : List ParamPack → List (List (List Char)) → Bindings
  | pack :: packs, row :: rows => pack.names.zip row ++ packBindings packs rows
  | _, _ => []

/-- Template combinations, then pack rows, then values of the scalar axes. -/
def combinations (combos : List (List (List Char))) (packs : List ParamPack) (scalarAxes : List Bindings) :
    List Combination :=
  combos.flatMap fun template =>
    (product (packs.map (·.rows))).flatMap fun rows =>
      (product scalarAxes).map fun values => ⟨template, packBindings packs rows ++ values⟩

def boundArg (c : Combination) : FunctionParam × ParamRole → List FreeCallArg
  | (_, .fixture index) => [.fixture index]
  | (_, .defaulted) => []
  | (param, .value) =>
    match c.values.lookup param.name with
    | none => []
    | some value => [.value (quoteForType (classifyType param.typeSpelling) value param.typeSpelling)]

def boundCase (d : Declaration) (roles : List (FunctionParam × ParamRole)) (c : Combination) : ExpandedCase :=
  d.case c.template (roles.flatMap (boundArg c))

def ExpandedCase.names (c : ExpandedCase) : String × String := (c.info.qualifiedName, c.info.displayName)

def ExpandedCase.key (c : ExpandedCase) : String := c.info.seenKey

-- ---------------------------------------------------------------------------
-- The visitors go through the product
-- ---------------------------------------------------------------------------

def packBlocks (pack : ParamPack) : List Bindings := pack.rows.map (pack.names.zip ·)

section Visitors

variable (emit : NameMap → Expansion → Expansion)

theorem visitScalars_eq (axes : List Bindings) (s : NameMap × Expansion) :
    visitScalars emit axes s = visit emit (axes.map (·.map ([·]))) s := by
  induction axes generalizing s with
  | nil => rfl
  | cons axis axes ih =>
    rw [visitScalars, List.map_cons, visit, List.foldl_map]
    simp only [ih]
    rfl

theorem visitPacks_eq (axes : List Bindings) (packs : List ParamPack) (s : NameMap × Expansion) :
    visitPacks emit axes packs s = visit emit (packs.map packBlocks ++ axes.map (·.map ([·]))) s := by
  induction packs generalizing s with
  | nil =>
    rw [visitPacks, List.map_nil, List.nil_append]
    split
    · rename_i hnone
      subst hnone
      rfl
    · exact visitScalars_eq emit axes s
  | cons pack packs ih =>
    rw [visitPacks, List.map_cons, List.cons_append, visit, packBlocks, List.foldl_map]
    simp only [ih]

theorem product_packBlocks (packs : List ParamPack) :
    (product (packs.map packBlocks)).map List.flatten = (product (packs.map (·.rows))).map (packBindings packs) := by
  induction packs with
  | nil => rfl
  | cons pack packs ih =>
    have hrow : ∀ row : List (List Char), (product (packs.map packBlocks)).map (fun blocks => pack.names.zip row ++ blocks.flatten) =
        (product (packs.map (·.rows))).map fun rows => pack.names.zip row ++ packBindings packs rows := by
      intro row
      have := congrArg (List.map (pack.names.zip row ++ ·)) ih
      simpa only [List.map_map, Function.comp_def] using this
    simp only [List.map_cons, product, packBlocks, List.flatMap_map, List.map_flatMap, List.map_map, Function.comp_def,
      List.flatten_cons, packBindings, hrow]

theorem visitPacks_product (axes : List Bindings) (packs : List ParamPack) (current : NameMap) (s : Expansion) :
    visitPacks emit axes packs (current, s) =
      (current, ((product (packs.map (·.rows))).flatMap fun rows =>
        (product axes).map fun values => packBindings packs rows ++ values).foldl
          (fun s values => emit (assign current values) s) s) := by
  have hleaves : (product (packs.map packBlocks ++ axes.map (·.map ([·])))).map List.flatten =
      (product (packs.map (·.rows))).flatMap fun rows =>
        (product axes).map fun values => packBindings packs rows ++ values := by
    have hpacks := product_packBlocks packs
    have hsingle : ∀ values : Bindings, (values.map ([·])).flatten = values := by
      intro values
      rw [← List.flatMap_def, List.flatMap_singleton']
    calc (product (packs.map packBlocks ++ axes.map (·.map ([·])))).map List.flatten
        = (product (packs.map packBlocks)).flatMap fun blocks =>
            (product axes).map fun values => blocks.flatten ++ values := by
          rw [product_append, product_map]
          simp only [List.map_flatMap, List.map_map, Function.comp_def, List.flatten_append, hsingle]
      _ = ((product (packs.map packBlocks)).map List.flatten).flatMap fun bound =>
            (product axes).map fun values => bound ++ values := by simp only [List.flatMap_map]
      _ = _ := by
          rw [hpacks, List.flatMap_map]
  rw [visitPacks_eq, visit_eq, ← hleaves, List.foldl_map]

end Visitors

theorem visitCombos_eq (d : Declaration) (importer : ImporterCheck) (roles : List (FunctionParam × ParamRole))
    (scalarAxes : List Bindings) (combos : List (List (List Char))) (current : NameMap) (s : Expansion) :
    visitCombos d importer roles scalarAxes combos (current, s) =
      (current, (combinations combos d.packs scalarAxes).foldl
        (fun s c => emitCase d importer roles c.template (assign current c.values) s) s) := by
  have hone : ∀ emit : NameMap → Expansion → Expansion, ∀ s : NameMap × Expansion,
      (if d.packs = [] then if scalarAxes = [] then (s.1, emit s.1 s.2) else visitScalars emit scalarAxes s
        else visitPacks emit scalarAxes d.packs s) = visitPacks emit scalarAxes d.packs s := by
    intro emit s
    split
    · rename_i hnone
      rw [hnone, visitPacks]
    · rfl
  unfold visitCombos
  simp only [hone]
  induction combos generalizing s with
  | nil => rfl
  | cons template combos ih =>
    rw [List.foldl_cons, visitPacks_product, ih]
    simp only [combinations, List.flatMap_cons, List.foldl_append, List.foldl_flatMap, List.foldl_map]

-- ---------------------------------------------------------------------------
-- Names of axes
-- ---------------------------------------------------------------------------

theorem checkAxisNames_ok {α : Type} {known : List (List Char)} {unknown duplicate : α → String → String}
    {name : α → List Char} {items : List α} {names out : List (List Char)}
    (h : items.foldlM (fun names a => checkAxisName known (unknown a) (duplicate a) names (name a)) names = .ok out)
    (hnodup : names.Nodup) :
    out = (items.map name).reverse ++ names ∧ out.Nodup ∧ ∀ a ∈ items, name a ∈ known := by
  induction items generalizing names with
  | nil =>
    cases h
    exact ⟨rfl, hnodup, fun _ ha => (nomatch ha)⟩
  | cons a items ih =>
    rw [List.foldlM_cons, bind_ok] at h
    obtain ⟨next, hnext, h⟩ := h
    unfold checkAxisName at hnext
    split at hnext
    · cases hnext
    rename_i hknown
    split at hnext
    · cases hnext
    · rename_i hnew
      cases hnext
      simp only [Bool.not_eq_true', Bool.not_eq_false, List.contains_iff_mem] at hknown hnew
      obtain ⟨rfl, hout, hmore⟩ := ih h (List.nodup_cons.mpr ⟨hnew, hnodup⟩)
      exact ⟨by simp, hout, List.forall_mem_cons.mpr ⟨hknown, hmore⟩⟩

def axisNames (d : Declaration) : List (List Char) := d.scalars.map (·.name) ++ d.packs.flatMap (·.names)

theorem validateAxes_ok {d : Declaration} {names : List (List Char)} (h : validateAxes d = .ok names) :
    (axisNames d).Nodup ∧ (∀ name, name ∈ names ↔ name ∈ axisNames d) ∧ ∀ name ∈ axisNames d, name ∈ knownNames d.params := by
  obtain ⟨scalarNames, hscalars, hpacks⟩ := bind_ok.mp h
  obtain ⟨hscalar, hnodup, hscalarKnown⟩ := checkAxisNames_ok hscalars List.nodup_nil
  obtain ⟨hall, hout, hpackKnown⟩ := @checkAxisNames_ok _ _ _ _ id _ _ _ hpacks hnodup
  have hnames : names = (axisNames d).reverse := by
    rw [hall, hscalar, axisNames]
    simp
  rw [hnames, List.nodup_reverse] at hout
  refine ⟨hout, fun name => by rw [hnames, List.mem_reverse], fun name hname => ?_⟩
  obtain hname | hname := List.mem_append.mp hname
  · obtain ⟨axis, haxis, rfl⟩ := List.mem_map.mp hname
    exact hscalarKnown axis haxis
  · exact hpackKnown name hname

theorem inferRoles_ok {valueAxisNames : List (List Char)} {fixtures : Nat} {params : List FunctionParam}
    {roles : List (FunctionParam × ParamRole)} (h : inferRoles valueAxisNames fixtures params = .ok roles) :
    roles.map Prod.fst = params ∧
      ∀ entry ∈ roles, entry.2 = .value ↔ entry.1.name ≠ [] ∧ entry.1.name ∈ valueAxisNames := by
  induction params generalizing fixtures roles with
  | nil =>
    cases h
    exact ⟨rfl, fun _ hentry => (nomatch hentry)⟩
  | cons param params ih =>
    simp only [inferRoles, List.contains_iff_mem] at h
    split at h
    · rename_i hvalue
      obtain ⟨rest, hrest, h⟩ := bind_ok.mp h
      cases h
      obtain ⟨rfl, hroles⟩ := ih hrest
      exact ⟨rfl, List.forall_mem_cons.mpr ⟨iff_of_true rfl hvalue, hroles⟩⟩
    rename_i hvalue
    split at h
    · obtain ⟨rest, hrest, h⟩ := bind_ok.mp h
      cases h
      obtain ⟨rfl, hroles⟩ := ih hrest
      exact ⟨rfl, List.forall_mem_cons.mpr ⟨iff_of_false (fun heq => (nomatch heq)) hvalue, hroles⟩⟩
    split at h
    · cases h
    · obtain ⟨rest, hrest, h⟩ := bind_ok.mp h
      cases h
      obtain ⟨rfl, hroles⟩ := ih hrest
      exact ⟨rfl, List.forall_mem_cons.mpr ⟨iff_of_false (fun heq => (nomatch heq)) hvalue, hroles⟩⟩

-- ---------------------------------------------------------------------------
-- What a combination binds
-- ---------------------------------------------------------------------------

theorem packBindings_names {packs : List ParamPack} {rows : List (List (List Char))}
    (hshaped : ∀ pack ∈ packs, ∀ row ∈ pack.rows, row.length = pack.names.length)
    (hrows : rows ∈ product (packs.map (·.rows))) :
    (packBindings packs rows).map Prod.fst = packs.flatMap (·.names) := by
  induction packs generalizing rows with
  | nil => rfl
  | cons pack packs ih =>
    obtain ⟨hpack, hmore⟩ := List.forall_mem_cons.mp hshaped
    cases mem_product.mp hrows with
    | cons hrow hrest =>
      rw [packBindings, List.map_append, ih hmore (mem_product.mpr hrest), List.flatMap_cons,
        List.map_fst_zip (hpack _ hrow).ge]

theorem scalarBindings_names {scalars : List ScalarAxis} {scalarAxes : List Bindings} {values : Bindings}
    (haxes : List.Forall₂ (fun axis bindings => scalarAxis axis = .ok bindings) scalars scalarAxes)
    (hvalues : values ∈ product scalarAxes) : values.map Prod.fst = scalars.map (·.name) := by
  have hpairs := mem_product.mp hvalues
  clear hvalues
  induction haxes generalizing values with
  | nil =>
    cases hpairs
    rfl
  | @cons axis bindings scalars scalarAxes haxis _ ih =>
    cases hpairs with
    | @cons value rest _ _ hvalue hrest =>
      have hname : value.1 = axis.name := by
        unfold scalarAxis at haxis
        cases hall : axis.values with
        | error message =>
          rw [hall] at haxis
          cases haxis
        | ok all =>
          rw [hall] at haxis
          cases haxis
          obtain ⟨_, _, rfl⟩ := List.mem_map.mp hvalue
          rfl
      rw [List.map_cons, List.map_cons, hname, ih hrest]

def declaredTemplates (d : Declaration) : List (List (List Char)) :=
  (product (templateAxes d.templateSets d.templateParams)).map List.flatten

/-- What the checks before the visitors establish. -/
structure Prepared (d : Declaration) (importer : ImporterCheck) (roles : List (FunctionParam × ParamRole))
    (scalarAxes : List Bindings) : Prop where
  templates : templateCombos d.templateSets d.templateParams = .ok (declaredTemplates d)
  visited : prepare d importer = .ok (declaredTemplates d, roles, scalarAxes)
  names : (axisNames d).Nodup
  params : roles.map Prod.fst = d.params
  value : ∀ entry ∈ roles, entry.2 = .value ↔ entry.1.name ≠ [] ∧ entry.1.name ∈ axisNames d
  known : ∀ name ∈ axisNames d, name ≠ []
  axes : List.Forall₂ (fun axis bindings => scalarAxis axis = .ok bindings) d.scalars scalarAxes

theorem prepared_of_ok {d : Declaration} {importer : ImporterCheck} {combos : List (List (List Char))}
    {roles : List (FunctionParam × ParamRole)} {scalarAxes : List Bindings}
    (h : prepare d importer = .ok (combos, roles, scalarAxes)) : Prepared d importer roles scalarAxes := by
  obtain ⟨combos', hcombos, hrest⟩ := bind_ok.mp h
  obtain rfl : combos' = declaredTemplates d := templateCombos_eq d.sets_filled hcombos
  split at hrest
  · cases hrest
  · obtain ⟨names, hnames, hrest⟩ := bind_ok.mp hrest
    obtain ⟨roles', hroles, hrest⟩ := bind_ok.mp hrest
    obtain ⟨axes', haxes, hrest⟩ := bind_ok.mp hrest
    cases hrest
    obtain ⟨hnodup, hmem, hknown⟩ := validateAxes_ok hnames
    obtain ⟨hparams, hvalue⟩ := inferRoles_ok hroles
    exact {
      templates := hcombos
      visited := h
      names := hnodup
      params := hparams
      value := fun entry hentry => by rw [hvalue entry hentry, hmem]
      known := fun name hname => by simpa using List.of_mem_filter (hknown name hname)
      axes := mapM_ok.mp haxes }

theorem values_names {d : Declaration} {importer : ImporterCheck} {roles : List (FunctionParam × ParamRole)}
    {scalarAxes : List Bindings} (h : Prepared d importer roles scalarAxes) {combos : List (List (List Char))}
    {c : Combination} (hc : c ∈ combinations combos d.packs scalarAxes) :
    (c.values.map Prod.fst).Nodup ∧ ∀ name, name ∈ c.values.map Prod.fst ↔ name ∈ axisNames d := by
  obtain ⟨template, -, hc⟩ := List.mem_flatMap.mp hc
  obtain ⟨rows, hrows, hc⟩ := List.mem_flatMap.mp hc
  obtain ⟨values, hvalues, rfl⟩ := List.mem_map.mp hc
  have hkeys : (packBindings d.packs rows ++ values).map Prod.fst = d.packs.flatMap (·.names) ++ d.scalars.map (·.name) := by
    rw [List.map_append, packBindings_names d.packs_shaped hrows, scalarBindings_names h.axes hvalues]
  refine ⟨?_, fun name => ?_⟩
  · rw [hkeys]
    exact List.nodup_append_comm.mp h.names
  · rw [hkeys, axisNames, List.mem_append, List.mem_append, or_comm]

/-- The one value that a combination gives to a name. -/
def Binds (c : Combination) (name value : List Char) : Prop :=
  (name, value) ∈ c.values ∧ ∀ other, (name, other) ∈ c.values → other = value

theorem lookup_binds {c : Combination} (h : (c.values.map Prod.fst).Nodup) {name : List Char}
    (hname : name ∈ c.values.map Prod.fst) : ∃ value, c.values.lookup name = some value ∧ Binds c name value := by
  obtain ⟨⟨key, value⟩, hentry, hkey⟩ := List.mem_map.mp hname
  obtain rfl : key = name := hkey
  have hunique : ∀ other, (key, other) ∈ c.values → other = value := fun other hother =>
    congrArg Prod.snd (List.inj_on_of_nodup_map h hother hentry rfl)
  cases hlookup : c.values.lookup key with
  | none => exact absurd (List.lookup_eq_none_iff.mp hlookup _ hentry) (by simp)
  | some found =>
    obtain ⟨front, behind, heq, -⟩ := List.lookup_eq_some_iff.mp hlookup
    have hfound : (key, found) ∈ c.values := heq ▸ by simp
    obtain rfl := hunique found hfound
    exact ⟨found, rfl, hentry, hunique⟩

-- ---------------------------------------------------------------------------
-- What is emitted
-- ---------------------------------------------------------------------------

/-- An importer can name every value expression of the combinations. -/
def ExpressionsNamed (importer : ImporterCheck) (roles : List (FunctionParam × ParamRole)) (cs : List Combination) : Prop :=
  ∀ c ∈ cs, ∀ role ∈ roles, ∀ expr, .value expr ∈ boundArg c role → importer "parameter expression" expr = none

theorem emitCase_eq {d : Declaration} {importer : ImporterCheck} {roles : List (FunctionParam × ParamRole)}
    {c : Combination} (hnodup : (c.values.map Prod.fst).Nodup)
    (hvalue : ∀ entry ∈ roles, entry.2 = .value → entry.1.name ≠ [] ∧ entry.1.name ∈ c.values.map Prod.fst)
    (hnamed : ∀ role ∈ roles, ∀ expr, .value expr ∈ boundArg c role → importer "parameter expression" expr = none)
    (s : Expansion) :
    emitCase d importer roles c.template (assign (fun _ => none) c.values) s = s.addCase (boundCase d roles c) := by
  have hargs : roles.mapM (callArg importer (assign (fun _ => none) c.values)) = .ok (roles.map (boundArg c)) := by
    refine mapM_ok_of_forall fun role hrole => ?_
    obtain ⟨param, role⟩ := role
    cases role with
    | fixture index => rfl
    | defaulted => rfl
    | value =>
      obtain ⟨hne, hname⟩ := hvalue _ hrole rfl
      obtain ⟨value, hlookup, -⟩ := lookup_binds hnodup hname
      have hexpr := hnamed _ hrole (quoteForType (classifyType param.typeSpelling) value param.typeSpelling)
        (by simp [boundArg, hlookup])
      simp only [callArg, hne, if_false, assign_eq_lookup hnodup, hlookup, hexpr, boundArg]
  simp only [emitCase, hargs, boundCase, List.flatMap_def]

theorem foldl_addCase (cases : List ExpandedCase) (s : Expansion) :
    (cases.foldl Expansion.addCase s).out = s.out ++ Grouping.firsts ExpandedCase.key s.seen cases ∧
      (cases.foldl Expansion.addCase s).reports = s.reports := by
  induction cases generalizing s with
  | nil => simp [Grouping.firsts]
  | cons case cases ih =>
    rw [List.foldl_cons, Grouping.firsts]
    by_cases hseen : case.key ∈ s.seen
    · have hsame : s.addCase case = s := if_pos hseen
      rw [hsame, if_pos hseen]
      exact ih s
    · have hnew : s.addCase case = { s with seen := case.key :: s.seen, out := s.out ++ [case] } := if_neg hseen
      rw [hnew, if_neg hseen]
      obtain ⟨hout, hreports⟩ := ih { s with seen := case.key :: s.seen, out := s.out ++ [case] }
      exact ⟨by rw [hout]; simp, hreports⟩

-- ---------------------------------------------------------------------------
-- The full product
-- ---------------------------------------------------------------------------

def declaredCombinations (d : Declaration) (scalarAxes : List Bindings) : List Combination :=
  combinations (declaredTemplates d) d.packs scalarAxes

def declaredCases (d : Declaration) (roles : List (FunctionParam × ParamRole)) (scalarAxes : List Bindings) :
    List ExpandedCase :=
  (declaredCombinations d scalarAxes).map (boundCase d roles)

/-- What is emitted is the product without repeated names, each value parameter is bound
to the one value of its axis, and the map of current values is empty in the end. -/
structure FullProduct (d : Declaration) (importer : ImporterCheck) (roles : List (FunctionParam × ParamRole))
    (scalarAxes : List Bindings) (s : Expansion) : Prop where
  cases : (expand d importer s).2.out = s.out ++ Grouping.firsts ExpandedCase.names [] (declaredCases d roles scalarAxes)
  reports : (expand d importer s).2.reports = s.reports
  restored : (expand d importer s).1 = fun _ => none
  params : roles.map Prod.fst = d.params
  bound : ∀ c ∈ declaredCombinations d scalarAxes, ∀ param ∈ d.params, param.name ∈ axisNames d →
    (param, ParamRole.value) ∈ roles ∧ ∃ value, Binds c param.name value ∧ boundArg c (param, .value) =
      [.value (quoteForType (classifyType param.typeSpelling) value param.typeSpelling)]
  declarationOrder : ∀ sets, sets.Perm d.templateSets → templateCombos sets d.templateParams = .ok (declaredTemplates d)

theorem boundCase_key {d : Declaration} {roles : List (FunctionParam × ParamRole)} {c c' : Combination}
    (h : (boundCase d roles c).names = (boundCase d roles c').names) :
    (boundCase d roles c).key = (boundCase d roles c').key := by
  obtain ⟨hqualified, hdisplay⟩ := Prod.mk.inj h
  simp only [ExpandedCase.key, TestCaseInfo.seenKey, hqualified, hdisplay]
  rfl

theorem expand_eq {d : Declaration} {importer : ImporterCheck} {roles : List (FunctionParam × ParamRole)}
    {scalarAxes : List Bindings} (h : Prepared d importer roles scalarAxes)
    (hnamed : ExpressionsNamed importer roles (declaredCombinations d scalarAxes)) (s : Expansion) :
    expand d importer s = (fun _ => none, (declaredCases d roles scalarAxes).foldl Expansion.addCase s) := by
  rw [expand, h.visited]
  dsimp only
  rw [visitCombos_eq, declaredCases, List.foldl_map]
  refine congrArg _ (List.foldl_ext _ _ s fun s c hc => ?_)
  obtain ⟨hnodup, hbound⟩ := values_names h hc
  refine emitCase_eq hnodup (fun entry hentry hvalue => ?_) (hnamed c hc) s
  obtain ⟨hne, hname⟩ := (h.value entry hentry).mp hvalue
  exact ⟨hne, (hbound _).mpr hname⟩

/-- The expansion is the full product exactly when no case was collected before and the
text of the names tells the names apart. -/
theorem full_product_iff {d : Declaration} {importer : ImporterCheck} {combos : List (List (List Char))}
    {roles : List (FunctionParam × ParamRole)} {scalarAxes : List Bindings}
    (h : prepare d importer = .ok (combos, roles, scalarAxes))
    (hnamed : ExpressionsNamed importer roles (declaredCombinations d scalarAxes)) (s : Expansion) :
    FullProduct d importer roles scalarAxes s ↔
      (∀ c ∈ declaredCases d roles scalarAxes, c.key ∉ s.seen) ∧
        ∀ c ∈ declaredCases d roles scalarAxes, ∀ c' ∈ declaredCases d roles scalarAxes,
          c.key = c'.key → c.names = c'.names := by
  have hprepared := prepared_of_ok h
  have hexpand := expand_eq hprepared hnamed s
  obtain ⟨hout, hreports⟩ := foldl_addCase (declaredCases d roles scalarAxes) s
  have hcoarse : ∀ c ∈ declaredCases d roles scalarAxes, ∀ c' ∈ declaredCases d roles scalarAxes,
      c.names = c'.names → c.key = c'.key := by
    intro c hc c' hc' hnames
    obtain ⟨_, -, rfl⟩ := List.mem_map.mp hc
    obtain ⟨_, -, rfl⟩ := List.mem_map.mp hc'
    exact boundCase_key hnames
  rw [← Grouping.firsts_eq_iff hcoarse]
  constructor
  · intro hfull
    have hcases := hfull.cases
    rw [hexpand, hout] at hcases
    exact List.append_cancel_left hcases
  · intro hfirsts
    refine ⟨?_, ?_, ?_, hprepared.params, ?_, ?_⟩
    · rw [hexpand, hout, hfirsts]
    · rw [hexpand, hreports]
    · rw [hexpand]
    · intro c hc param hparam hname
      obtain ⟨⟨_, role⟩, hentry, rfl⟩ := List.mem_map.mp (hprepared.params ▸ hparam)
      obtain rfl : role = .value := (hprepared.value _ hentry).mpr ⟨hprepared.known _ hname, hname⟩
      obtain ⟨hnodup, hbound⟩ := values_names hprepared hc
      obtain ⟨value, hlookup, hbinds⟩ := lookup_binds hnodup ((hbound _).mpr hname)
      exact ⟨hentry, value, hbinds, by simp only [boundArg, hlookup]⟩
    · intro sets hperm
      rw [templateCombos_perm d.sets_named hperm, hprepared.templates]

/-- The records that are kept are those that the collector keeps of the instantiations. -/
theorem expand_collects {d : Declaration} {importer : ImporterCheck} {combos : List (List (List Char))}
    {roles : List (FunctionParam × ParamRole)} {scalarAxes : List Bindings}
    (h : prepare d importer = .ok (combos, roles, scalarAxes))
    (hnamed : ExpressionsNamed importer roles (declaredCombinations d scalarAxes)) {s : Expansion}
    {collector : TestCaseCollector} (hseen : s.seen = collector.seen) (hout : s.out.map (·.info) = collector.out) :
    (expand d importer s).2.out.map (·.info) =
      (((declaredCombinations d scalarAxes).map fun c => instantiation c.template (roles.flatMap (boundArg c))).foldl
        (TestCaseCollector.addCase d.source) collector).out := by
  rw [expand_eq (prepared_of_ok h) hnamed, declaredCases]
  generalize declaredCombinations d scalarAxes = cs
  induction cs generalizing s collector with
  | nil => exact hout
  | cons c cs ih =>
    have hkey : (boundCase d roles c).info = d.source.caseInfo (instantiation c.template (roles.flatMap (boundArg c))) := rfl
    simp only [List.map_cons, List.foldl_cons]
    refine ih ?_ ?_
    all_goals
      simp only [Expansion.addCase, TestCaseCollector.addCase, hkey, hseen]
      split
    · exact hseen
    · rfl
    · exact hout
    · rw [List.map_append, hout]
      rfl

-- ---------------------------------------------------------------------------
-- Two declarations
-- ---------------------------------------------------------------------------

/-- A function template named `q` whose cases are named `b`. -/
def templateSource : CaseSource where
  qualified := "q"
  suitePath := ""
  caseName := "b"
  named := by decide
  isFunctionTemplate := true
  filename := "cases.cpp"
  line := 7
  beginLocation := "cases.cpp:7"
  info := { qualifiedName := "" }
  instantiations := []

def typeParameter : TemplateParamInfo := ⟨"T", .type, false⟩

def intParam (name : String) : FunctionParam := ⟨name.toList, "int".toList, false, none⟩

def plainDeclaration : Declaration where
  source := templateSource
  templateParams := [typeParameter]
  params := [intParam "c", intParam "a", intParam "b"]
  templateSets := [⟨"T", ["int".toList, "long".toList]⟩]
  scalars := [⟨"parameters", "c".toList, .ok ["5".toList, "6".toList]⟩]
  packs := [⟨["a".toList, "b".toList], [["1".toList, "2".toList], ["3".toList, "4".toList]]⟩]
  template_iff := by decide
  sets_named := by decide
  sets_filled := by decide
  packs_shaped := by decide

def plainRoles : List (FunctionParam × ParamRole) :=
  [(intParam "c", .value), (intParam "a", .value), (intParam "b", .value)]

def plainAxes : List Bindings := [[("c".toList, "5".toList), ("c".toList, "6".toList)]]

theorem plain_expansion_full : FullProduct plainDeclaration (fun _ _ => none) plainRoles plainAxes ⟨[], [], []⟩ :=
  (@full_product_iff plainDeclaration (fun _ _ => none) [["int".toList], ["long".toList]] _ _ rfl (fun _ _ _ _ _ _ => rfl) _).mpr
    ⟨fun _ _ => List.not_mem_nil, by decide +kernel⟩

def separatorsDeclaration : Declaration where
  source := templateSource
  templateParams := [typeParameter]
  params := [intParam "v"]
  templateSets := [⟨"T", ["x".toList, "x>#b<x>(y".toList]⟩]
  scalars := [⟨"parameters", "v".toList, .ok ["y>#b<x>#b<x>(y>(0".toList, "0".toList]⟩]
  packs := []
  template_iff := by decide
  sets_named := by decide
  sets_filled := by decide
  packs_shaped := by decide

def separatorsAxes : List Bindings := [[("v".toList, "y>#b<x>#b<x>(y>(0".toList), ("v".toList, "0".toList)]]

/-- Four combinations with different names, of which three are emitted. -/
theorem separators_case_dropped :
    ¬FullProduct separatorsDeclaration (fun _ _ => none) [(intParam "v", .value)] separatorsAxes ⟨[], [], []⟩ ∧
      (prepare separatorsDeclaration fun _ _ => none) =
        .ok ([["x".toList], ["x>#b<x>(y".toList]], [(intParam "v", .value)], separatorsAxes) := by
  refine ⟨fun hfull => ?_, rfl⟩
  have hlength := congrArg List.length hfull.cases
  revert hlength
  decide +kernel

end Gentest.Codegen
