import Gentest.Codegen.RowTexts
import Gentest.Lib.Visits
import Mathlib.Data.List.Nodup
import Mathlib.Data.String.Basic

/-!
# Template argument combinations

Every `template` attribute names a parameter and lists its candidates, each a row of
arguments. A function template is instantiated with every choice of a candidate for
each of its parameters, in the order in which they are declared.
-/

namespace Gentest.Codegen

-- ---------------------------------------------------------------------------
-- Combinations
-- ---------------------------------------------------------------------------

def flattenRowCartesian (axes : List (List (List (List Char)))) : List (List (List Char)) :=
  if axes = [] then [[]]
  else
    let out := axes.foldl (fun out axis => out.flatMap fun acc => axis.map (acc ++ ·)) [[]]
    if out = [] then [[]] else out

/-- The map from names to their sets; the first set of a name stays. -/
def setMap (sets : List TemplateBindingSet) (name : String) : Option TemplateBindingSet :=
  sets.find? fun set => set.paramName = name

def validateTemplateAttributes (sets : List TemplateBindingSet) (declOrder : List TemplateParamInfo) :
    Except String Unit := do
  declOrder.forM fun tp =>
    match setMap sets tp.name with
    | none => .error ("missing 'template(" ++ tp.name ++ ", ...)' attribute for template parameter '" ++ tp.name ++ "'")
    | some set => validateTemplateBindingShape set tp
  -- the names of the map are in order
  match ((sets.map (·.paramName)).filter (· ∉ declOrder.map (·.name))).min? with
  | some name => .error ("unknown template parameter '" ++ name ++ "' in attributes")
  | none => .ok ()

def buildTemplateArgCombos (sets : List TemplateBindingSet) (declOrder : List TemplateParamInfo) :
    Option (List (List (List Char))) :=
  (declOrder.mapM fun tp => (setMap sets tp.name).map (buildBindingRows · tp.isPack)).map flattenRowCartesian

/-- The combinations of a function with these template parameters; one that is no
template has none. -/
def templateCombos (sets : List TemplateBindingSet) (declOrder : List TemplateParamInfo) :
    Except String (List (List (List Char))) :=
  if sets = [] then .ok [[]]
  else if declOrder = [] then .error "'template(...)' attributes present but function is not a template"
  else do
    validateTemplateAttributes sets declOrder
    match buildTemplateArgCombos sets declOrder with
    | some combos => .ok (if combos = [] then [[]] else combos)
    | none => .error "map::at"

-- ---------------------------------------------------------------------------
-- Products of rows
-- ---------------------------------------------------------------------------

def ownRows (sets : List TemplateBindingSet) (tp : TemplateParamInfo) : List (List (List Char)) :=
  match setMap sets tp.name with
  | none => []
  | some set => buildBindingRows set tp.isPack

/-- The axes of the template parameters in declaration order. -/
def templateAxes (sets : List TemplateBindingSet) (declOrder : List TemplateParamInfo) :
    List (List (List (List Char))) :=
  if sets = [] then [] else declOrder.map (ownRows sets)

theorem flattenRowCartesian_eq {axes : List (List (List (List Char)))} (h : ∀ axis ∈ axes, axis ≠ []) :
    flattenRowCartesian axes = (Visits.product axes).map List.flatten := by
  have hout : axes.foldl (fun out axis => out.flatMap fun acc => axis.map (acc ++ ·)) [[]] =
      (Visits.product axes).map List.flatten := by
    rw [Visits.foldl_product]
    simp
  unfold flattenRowCartesian
  split
  · rename_i hnone
    subst hnone
    rfl
  · dsimp only
    rw [hout, if_neg]
    exact fun hnil => Visits.product_ne_nil h (List.map_eq_nil_iff.mp hnil)

theorem setMap_of_validated {sets : List TemplateBindingSet} {declOrder : List TemplateParamInfo}
    (h : validateTemplateAttributes sets declOrder = .ok ()) {tp : TemplateParamInfo} (htp : tp ∈ declOrder) :
    ∃ set, setMap sets tp.name = some set := by
  rw [validateTemplateAttributes, Fallible.bind_ok] at h
  obtain ⟨_, hall, -⟩ := h
  have hown := Fallible.forM_ok.mp hall tp htp
  cases hset : setMap sets tp.name with
  | none =>
    rw [hset] at hown
    cases hown
  | some set => exact ⟨set, rfl⟩

theorem buildTemplateArgCombos_eq {sets : List TemplateBindingSet} {declOrder : List TemplateParamInfo}
    (h : ∀ tp ∈ declOrder, ∃ set, setMap sets tp.name = some set) :
    buildTemplateArgCombos sets declOrder = some (flattenRowCartesian (declOrder.map (ownRows sets))) := by
  unfold buildTemplateArgCombos
  have hrows : declOrder.mapM (fun tp => (setMap sets tp.name).map (buildBindingRows · tp.isPack)) =
      some (declOrder.map (ownRows sets)) := by
    induction declOrder with
    | nil => rfl
    | cons tp declOrder ih =>
      obtain ⟨⟨set, hset⟩, hmore⟩ := List.forall_mem_cons.mp h
      rw [List.mapM_cons, ih hmore]
      simp [hset, ownRows]
  rw [hrows, Option.map_some]

theorem templateCombos_eq {sets : List TemplateBindingSet} {declOrder : List TemplateParamInfo}
    {combos : List (List (List Char))} (hcandidates : ∀ set ∈ sets, set.candidates ≠ [])
    (h : templateCombos sets declOrder = .ok combos) :
    combos = (Visits.product (templateAxes sets declOrder)).map List.flatten := by
  unfold templateCombos at h
  unfold templateAxes
  split at h
  · rename_i hnone
    cases h
    rw [if_pos hnone]
    rfl
  · rename_i hsome
    rw [if_neg hsome]
    split at h
    · cases h
    · simp only [bind, Except.bind] at h
      split at h
      · cases h
      · rename_i hvalid
        have hsets := fun tp => @setMap_of_validated _ _ hvalid tp
        have haxes : ∀ axis ∈ declOrder.map (ownRows sets), axis ≠ [] := by
          intro axis haxis
          obtain ⟨tp, htp, rfl⟩ := List.mem_map.mp haxis
          obtain ⟨set, hset⟩ := hsets tp htp
          simp only [ownRows, hset, buildBindingRows, ne_eq, List.map_eq_nil_iff]
          exact hcandidates set (List.mem_of_find?_eq_some hset)
        rw [buildTemplateArgCombos_eq hsets, flattenRowCartesian_eq haxes] at h
        simp only [List.map_eq_nil_iff, Visits.product_ne_nil haxes, if_false, Except.ok.injEq] at h
        exact h.symm

-- ---------------------------------------------------------------------------
-- The order of the attributes
-- ---------------------------------------------------------------------------

theorem setMap_eq_some {sets : List TemplateBindingSet} (h : (sets.map (·.paramName)).Nodup) {name : String}
    {set : TemplateBindingSet} : setMap sets name = some set ↔ set ∈ sets ∧ set.paramName = name := by
  constructor
  · intro hset
    exact ⟨List.mem_of_find?_eq_some hset, by simpa using List.find?_some hset⟩
  · rintro ⟨hset, rfl⟩
    cases hfound : setMap sets set.paramName with
    | none => exact absurd (List.find?_eq_none.mp hfound set hset) (by simp)
    | some found =>
      have hname : found.paramName = set.paramName := by simpa using List.find?_some hfound
      rw [List.inj_on_of_nodup_map h (List.mem_of_find?_eq_some hfound) hset hname]

theorem setMap_perm {sets sets' : List TemplateBindingSet} (h : (sets.map (·.paramName)).Nodup) (hperm : sets'.Perm sets) :
    setMap sets' = setMap sets := by
  have h' : (sets'.map (·.paramName)).Nodup := (hperm.map _).nodup_iff.mpr h
  funext name
  refine Option.ext fun set => ?_
  rw [setMap_eq_some h', setMap_eq_some h, hperm.mem_iff]

theorem min_name_perm {names names' : List String} (hperm : names'.Perm names) : names'.min? = names.min? := by
  refine Option.ext fun name => ?_
  rw [List.min?_eq_some_iff, List.min?_eq_some_iff, hperm.mem_iff]
  simp only [hperm.mem_iff]

theorem templateCombos_perm {sets sets' : List TemplateBindingSet} (h : (sets.map (·.paramName)).Nodup)
    (hperm : sets'.Perm sets) (declOrder : List TemplateParamInfo) :
    templateCombos sets' declOrder = templateCombos sets declOrder := by
  have hmap := setMap_perm h hperm
  have hnil : sets' = [] ↔ sets = [] := by
    rw [← List.length_eq_zero_iff, hperm.length_eq, List.length_eq_zero_iff]
  have hunknown := min_name_perm ((hperm.map (·.paramName)).filter (· ∉ declOrder.map (·.name)))
  have hvalid : validateTemplateAttributes sets' declOrder = validateTemplateAttributes sets declOrder := by
    unfold validateTemplateAttributes
    rw [hmap, hunknown]
  simp only [templateCombos, hvalid, hnil, buildTemplateArgCombos, hmap]

end Gentest.Codegen
