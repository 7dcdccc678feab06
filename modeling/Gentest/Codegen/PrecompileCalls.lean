import Gentest.Codegen.ModulePrecompile
import Mathlib.Logic.Relation

/-!
# What the precompile closures do

An import is of a module, which the context of the import decides. What holds
between calls is one invariant. Each closure is shown to keep it, given that the
closures it calls do.
-/

namespace Gentest.Codegen

-- ---------------------------------------------------------------------------
-- Modules and imports
-- ---------------------------------------------------------------------------

/-- A module of the project, or an external one: its file and what that imports. -/
inductive Module
  | named (idx : Nat)
  | external (name file : String) (imports : List String)
  deriving DecidableEq, Repr

section

variable (g : ModuleGraph) (sources : List ImportingSource)

/-- The build can come to an import of the name from the context of the owner. -/
inductive Occurs : String → String → Prop
  | source {s : ImportingSource} {name : String} (hs : s ∈ sources) (hname : name ∈ s.importedModules) :
    Occurs name s.sourceKey
  | named {s : NamedModuleSource} {name : String} (hs : s ∈ g.sources) (hname : name ∈ s.importedModules) :
    Occurs name s.sourceKey
  | external {s : ExternalModuleSource} {name importer owner : String} (himporter : Occurs importer owner)
    (hindex : g.indexByName importer = none) (hs : g.resolveExternal importer owner = .found s)
    (hname : name ∈ s.importedModules) : Occurs name s.ownerKey

def ModuleGraph.moduleOf : ModuleKey → Option Module
  | .named idx => if idx < g.sources.length then some (.named idx) else none
  | .external name owner =>
    match g.resolveExternal name owner with
    | .found source => some (.external name source.ownerKey source.importedModules)
    | _ => none

def ModuleGraph.keyAt (name owner : String) : ModuleKey :=
  match g.indexByName name with
  | some idx => .named idx
  | none => .external name owner

def ModuleGraph.moduleAt (name owner : String) : Option Module := g.moduleOf (g.keyAt name owner)

def ModuleGraph.nameOf : Module → String
  | .named idx => (g.sources[idx]?.map NamedModuleSource.moduleName).getD ""
  | .external name _ _ => name

def ModuleGraph.importsOf : Module → List String
  | .named idx => (g.sources[idx]?.map NamedModuleSource.importedModules).getD []
  | .external _ _ imports => imports

def ModuleGraph.ownerOf : Module → String
  | .named idx => (g.sources[idx]?.map NamedModuleSource.sourceKey).getD ""
  | .external _ file _ => file

def ModuleGraph.pcmOf : ModuleKey → String
  | .named idx => (g.sources[idx]?.map NamedModuleSource.pcmPath).getD ""
  | .external name owner =>
    match g.resolveExternal name owner with
    | .found source => source.pcmPath
    | _ => ""

def Imports (x y : Module) : Prop := ∃ name ∈ g.importsOf x, g.moduleAt name (g.ownerOf x) = some y

/-- Imports, and what these import, and so on. -/
def Reaches : Module → Module → Prop := Relation.TransGen (Imports g)

/-- Some argument names a file of the module. -/
def HasArg (args : List String) (m : Module) : Prop :=
  ∃ key, g.moduleOf key = some m ∧ moduleFileArg (g.nameOf m) (g.pcmOf key) ∈ args

/-- The imports that are come to from a list of imports and the context of its owner. -/
inductive Below (imports : List String) (owner : String) : String → String → Prop
  | here {name : String} (hname : name ∈ imports) : Below imports owner name owner
  | nested {importer context name : String} {m : Module} (himporter : Below imports owner importer context)
    (hm : g.moduleAt importer context = some m) (hname : name ∈ g.importsOf m) :
    Below imports owner name (g.ownerOf m)

/-- A name means one module below a list of imports. -/
def OneMeaning (imports : List String) (owner : String) : Prop :=
  ∀ name context context', Below g imports owner name context → Below g imports owner name context' →
    g.moduleAt name context = g.moduleAt name context'

/-- What is imported itself means the same where it is met again below. -/
def OwnMeaning (imports : List String) (owner : String) : Prop :=
  ∀ name ∈ imports, ∀ context, Below g imports owner name context →
    g.moduleAt name context = g.moduleAt name owner

/-- The step that runs the command of a key: below a module of the project a name means
one module, and an external module imports all that it reaches. -/
def StepMeets (key : ModuleKey) : Prop :=
  ∀ m, g.moduleOf key = some m →
    match m with
    | .named _ => OneMeaning g (g.importsOf m) (g.ownerOf m)
    | .external .. => ∀ y, Reaches g m y → Imports g m y

end

section

variable {g : ModuleGraph} {sources : List ImportingSource} {name owner : String} {m : Module}

theorem indexByName_some {idx : Nat} (h : g.indexByName name = some idx) :
    ∃ s, g.sources[idx]? = some s ∧ s.moduleName = name := by
  obtain ⟨hlt, hname, -⟩ := List.findIdx?_eq_some_iff_getElem.mp h
  exact ⟨g.sources[idx], List.getElem?_eq_getElem hlt, of_decide_eq_true hname⟩

theorem moduleOf_named {idx : Nat} {s : NamedModuleSource} (h : g.sources[idx]? = some s) :
    g.moduleOf (.named idx) = some (.named idx) :=
  if_pos (List.getElem?_eq_some_iff.mp h).1

theorem moduleOf_external {s : ExternalModuleSource} (h : g.resolveExternal name owner = .found s) :
    g.moduleOf (.external name owner) = some (.external name s.ownerKey s.importedModules) := by
  rw [ModuleGraph.moduleOf, h]

theorem moduleOf_external_eq_some (h : g.moduleOf (.external name owner) = some m) :
    ∃ s, g.resolveExternal name owner = .found s ∧ m = .external name s.ownerKey s.importedModules := by
  unfold ModuleGraph.moduleOf at h
  dsimp only at h
  split at h
  · rename_i s hs
    exact ⟨s, hs, (Option.some.inj h).symm⟩
  · cases h

theorem keyAt_named {idx : Nat} (h : g.indexByName name = some idx) : g.keyAt name owner = .named idx := by
  rw [ModuleGraph.keyAt, h]

theorem keyAt_external (h : g.indexByName name = none) : g.keyAt name owner = .external name owner := by
  rw [ModuleGraph.keyAt, h]

/-- A set of imports with the imports of the modules they are of. -/
def ClosedImports (g : ModuleGraph) (C : String → String → Prop) : Prop :=
  ∀ ⦃name owner : String⦄ ⦃m : Module⦄, C name owner → g.moduleAt name owner = some m →
    ∀ y ∈ g.importsOf m, C y (g.ownerOf m)

theorem closedImports_below {imports : List String} {owner : String} : ClosedImports g (Below g imports owner) :=
  fun _ _ _ himporter hm _ hy => .nested himporter hm hy

theorem closedImports_occurs : ClosedImports g (Occurs g sources) := by
  intro name owner m hoccurs hm y hy
  unfold ModuleGraph.moduleAt at hm
  cases hindex : g.indexByName name with
  | some idx =>
    obtain ⟨s, hs, -⟩ := indexByName_some hindex
    rw [keyAt_named hindex, moduleOf_named hs] at hm
    obtain rfl := Option.some.inj hm
    simp only [ModuleGraph.importsOf, ModuleGraph.ownerOf, hs, Option.map_some, Option.getD_some] at hy ⊢
    exact .named (List.mem_of_getElem? hs) hy
  | none =>
    rw [keyAt_external hindex] at hm
    obtain ⟨s, hs, rfl⟩ := moduleOf_external_eq_some hm
    exact .external hoccurs hindex hs hy

end

-- ---------------------------------------------------------------------------
-- What holds between calls
-- ---------------------------------------------------------------------------

section

variable (g : ModuleGraph) (sources : List ImportingSource)

/-- The command of a module has run and succeeded. -/
def Ready (executed : List Precompile) (m : Module) : Prop :=
  ∃ p ∈ executed, g.moduleOf p.key = some m ∧ p.ok = true

structure BuildInvariant (σ : BuildState) : Prop where
  ended : ∀ p ∈ σ.executed, σ.states p.key = .built ∨ σ.states p.key = .failed
  once : (σ.executed.map Precompile.key).Nodup
  built : ∀ key, σ.states key = .built → ∃ p ∈ σ.executed, p.key = key ∧ p.ok = true
  valid : ∀ p ∈ σ.executed, ∃ m, g.moduleOf p.key = some m
  /-- In a run whose steps meet the condition so far. -/
  ordered : ∀ before p after, σ.executed = before ++ p :: after → (∀ q ∈ before ++ [p], StepMeets g q.key) →
    ∀ m, g.moduleOf p.key = some m → ∀ y, Reaches g m y → Ready g before y
  args : ∀ p ∈ σ.executed, StepMeets g p.key → ∀ m, g.moduleOf p.key = some m →
    ∀ y, Reaches g m y → HasArg g p.args y

structure Grows (σ σ' : BuildState) : Prop where
  started : ∀ key, σ.states key ≠ .notStarted → σ'.states key ≠ .notStarted
  executed : ∀ p ∈ σ.executed, p ∈ σ'.executed

def KeepsBuilding (σ σ' : BuildState) : Prop :=
  ∀ key, σ.states key = .building → σ'.states key = .building

def Available (w : Work) (m : Module) : Prop := Ready g w.build.executed m ∧ HasArg g w.args m

/-- What import closures that succeed do to imports of a set. A name that they visit is
available, if it is one of a module, and so are the imports visited. -/
structure Advances (C : String → String → Prop) (w w' : Work) : Prop where
  building : KeepsBuilding w.build w'.build
  executed : ∀ p ∈ w.build.executed, p ∈ w'.build.executed
  args : ∀ arg ∈ w.args, arg ∈ w'.args
  visited : ∀ name ∈ w.visited, name ∈ w'.visited
  newly : ∀ name ∈ w'.visited, name ∉ w.visited → ∃ owner, C name owner ∧
    ∀ m, g.moduleAt name owner = some m → Available g w' m ∧ ∀ y ∈ g.importsOf m, y ∈ w'.visited

structure ClosureSpec (call : Closures) : Prop where
  named : ∀ {idx σ b σ'}, call.buildNamedModulePcm idx σ = some (b, σ') → BuildInvariant g σ →
    BuildInvariant g σ' ∧ Grows σ σ' ∧ (b = true → KeepsBuilding σ σ' ∧
      ∃ p ∈ σ'.executed, p.key = .named idx ∧ p.ok = true)
  external : ∀ {name owner σ b σ'}, call.buildExternalNamedModulePcm name owner σ = some (b, σ') →
    BuildInvariant g σ → BuildInvariant g σ' ∧ Grows σ σ' ∧ (b = true → KeepsBuilding σ σ' ∧
      ∀ m, g.moduleOf (.external name owner) = some m →
        ∃ p ∈ σ'.executed, p.key = .external name owner ∧ p.ok = true)
  arg : ∀ {C : String → String → Prop} {name owner w b w'},
    call.appendModuleArgForImport name owner w = some (b, w') → BuildInvariant g w.build →
      BuildInvariant g w'.build ∧ Grows w.build w'.build ∧
        (b = true → Advances g C w w' ∧ w'.visited = w.visited ∧
          ∀ m, g.moduleAt name owner = some m → Available g w' m)
  transitive : ∀ {C : String → String → Prop} {name owner w b w'}, ClosedImports g C → C name owner →
    call.appendTransitiveModuleArgsForImport name owner w = some (b, w') →
      BuildInvariant g w.build → BuildInvariant g w'.build ∧
        Grows w.build w'.build ∧ (b = true → Advances g C w w' ∧ name ∈ w'.visited)

end

section

variable {g : ModuleGraph} {C : String → String → Prop} {σ σ' σ'' : BuildState} {w w' w'' : Work}

theorem Grows.refl : Grows σ σ := ⟨fun _ h => h, fun _ h => h⟩

theorem Grows.trans (h : Grows σ σ') (h' : Grows σ' σ'') : Grows σ σ'' :=
  ⟨fun key hkey => h'.started key (h.started key hkey), fun p hp => h'.executed p (h.executed p hp)⟩

theorem Available.mono {m : Module} (h : Available g w m) (hadvances : Advances g C w w') : Available g w' m := by
  obtain ⟨⟨p, hp, hkey⟩, key, hmodule, harg⟩ := h
  exact ⟨⟨p, hadvances.executed p hp, hkey⟩, key, hmodule, hadvances.args _ harg⟩

theorem Advances.refl : Advances g C w w where
  building _ h := h
  executed _ h := h
  args _ h := h
  visited _ h := h
  newly _ hname hnot := absurd hname hnot

theorem Advances.trans (h : Advances g C w w') (h' : Advances g C w' w'') :
    Advances g C w w'' where
  building key hkey := h'.building key (h.building key hkey)
  executed p hp := h'.executed p (h.executed p hp)
  args arg harg := h'.args arg (h.args arg harg)
  visited name hname := h'.visited name (h.visited name hname)
  newly name hname hnot := by
    by_cases hmiddle : name ∈ w'.visited
    · obtain ⟨owner, hoccurs, hmodule⟩ := h.newly name hmiddle hnot
      refine ⟨owner, hoccurs, fun m hm => ?_⟩
      obtain ⟨havailable, himports⟩ := hmodule m hm
      exact ⟨havailable.mono h', fun y hy => h'.visited y (himports y hy)⟩
    · exact h'.newly name hname hmiddle

theorem BuildInvariant.of_eq (h : BuildInvariant g σ) (hstates : σ'.states = σ.states)
    (hexecuted : σ'.executed = σ.executed) : BuildInvariant g σ' where
  ended := by rw [hstates, hexecuted]; exact h.ended
  once := by rw [hexecuted]; exact h.once
  built := by rw [hstates, hexecuted]; exact h.built
  valid := by rw [hexecuted]; exact h.valid
  ordered := by rw [hexecuted]; exact h.ordered
  args := by rw [hexecuted]; exact h.args

theorem BuildInvariant.set_building {key : ModuleKey} (h : BuildInvariant g σ)
    (hkey : σ.states key = .notStarted) : BuildInvariant g (σ.set key .building) where
  ended p hp := by
    have hended := h.ended p hp
    have hne : p.key ≠ key := by
      rintro rfl
      rw [hkey] at hended
      simp at hended
    simpa [BuildState.set, Function.update_of_ne hne] using hended
  once := h.once
  built other hother := by
    by_cases hne : other = key
    · subst hne
      simp [BuildState.set] at hother
    · simp only [BuildState.set, Function.update_of_ne hne] at hother
      exact h.built other hother
  valid := h.valid
  ordered := h.ordered
  args := h.args

theorem BuildInvariant.set_failed {key : ModuleKey} (h : BuildInvariant g σ) :
    BuildInvariant g (σ.set key .failed) where
  ended p hp := by
    by_cases hne : p.key = key
    · subst hne
      simp [BuildState.set]
    · simpa [BuildState.set, Function.update_of_ne hne] using h.ended p hp
  once := h.once
  built other hother := by
    by_cases hne : other = key
    · subst hne
      simp [BuildState.set] at hother
    · simp only [BuildState.set, Function.update_of_ne hne] at hother
      exact h.built other hother
  valid := h.valid
  ordered := h.ordered
  args := h.args

theorem grows_set {key : ModuleKey} {state : ModuleBuildState} (hstate : state ≠ .notStarted) :
    Grows σ (σ.set key state) := by
  refine ⟨fun other hother => ?_, fun _ hp => hp⟩
  by_cases hne : other = key
  · subst hne
    simpa [BuildState.set] using hstate
  · simpa [BuildState.set, Function.update_of_ne hne] using hother

theorem BuildInvariant.ready_trans (h : BuildInvariant g σ) (hmeets : ∀ q ∈ σ.executed, StepMeets g q.key)
    {x y : Module} (hx : Ready g σ.executed x) (hreaches : Reaches g x y) : Ready g σ.executed y := by
  obtain ⟨p, hp, hmodule, -⟩ := hx
  obtain ⟨before, after, hexecuted⟩ := List.append_of_mem hp
  obtain ⟨q, hq, hy⟩ := h.ordered before p after hexecuted (fun q hq => hmeets q (by
    rw [hexecuted]
    exact List.mem_append.mpr ((List.mem_append.mp hq).imp_right fun hq => by
      rw [List.mem_singleton.mp hq]
      exact List.mem_cons_self))) x hmodule y hreaches
  exact ⟨q, by rw [hexecuted]; exact List.mem_append_left _ hq, hy⟩

theorem executeModulePrecompile_spec {execute : Execute} {key : ModuleKey} {args : List String} {b : Bool}
    (hexec : executeModulePrecompile execute key args σ = (b, σ')) (h : BuildInvariant g σ)
    (hbuilding : σ.states key = .building) {m : Module} (hvalid : g.moduleOf key = some m)
    (himports : StepMeets g key → ∀ y, Imports g m y → Ready g σ.executed y)
    (hargs : StepMeets g key → ∀ y, Reaches g m y → HasArg g args y) :
    BuildInvariant g σ' ∧ Grows σ σ' ∧ (b = true → ⟨key, args, true⟩ ∈ σ'.executed) ∧
      ∀ other, other ≠ key → σ'.states other = σ.states other := by
  cases hexec
  have hnew : ∀ p ∈ σ.executed, p.key ≠ key := by
    rintro p hp rfl
    have hended := h.ended p hp
    rw [hbuilding] at hended
    simp at hended
  generalize execute σ.executed key args = ok
  refine ⟨?_, ⟨fun other hother => ?_, fun p hp => List.mem_append_left _ hp⟩, ?_, fun other hne => ?_⟩
  · refine
      { ended := fun p hp => ?_
        once := ?_
        built := fun other hother => ?_
        valid := fun p hp => ?_
        ordered := fun before p after hsplit hmeets x hx y hreaches => ?_
        args := fun p hp hmeets x hx y hreaches => ?_ }
    · rcases List.mem_append.mp hp with hp | hp
      · simpa [BuildState.set, Function.update_of_ne (hnew p hp)] using h.ended p hp
      · rw [List.mem_singleton] at hp
        subst hp
        cases ok <;> simp [BuildState.set]
    · rw [List.map_append, List.nodup_append]
      refine ⟨h.once, List.nodup_singleton _, ?_⟩
      rintro _ hmem _ hkey rfl
      obtain ⟨p, hp, rfl⟩ := List.mem_map.mp hmem
      exact hnew p hp (List.mem_singleton.mp hkey)
    · by_cases hne : other = key
      · subst hne
        refine ⟨⟨other, args, ok⟩, List.mem_append_right _ List.mem_cons_self, rfl, ?_⟩
        cases ok with
        | true => rfl
        | false => simp [BuildState.set] at hother
      · simp only [BuildState.set, Function.update_of_ne hne] at hother
        obtain ⟨p, hp, hkey⟩ := h.built other hother
        exact ⟨p, List.mem_append_left _ hp, hkey⟩
    · rcases List.mem_append.mp hp with hp | hp
      · exact h.valid p hp
      · rw [List.mem_singleton] at hp
        subst hp
        exact ⟨m, hvalid⟩
    · -- The command is the last one, or an earlier one.
      change σ.executed ++ [⟨key, args, ok⟩] = before ++ p :: after at hsplit
      rcases List.eq_nil_or_concat' after with rfl | ⟨after, last, rfl⟩
      · obtain ⟨rfl, hp⟩ := List.append_inj' hsplit rfl
        cases hp
        obtain rfl := Option.some.inj (hvalid.symm.trans hx)
        obtain ⟨z, hz, hrest⟩ := Relation.TransGen.head'_iff.mp hreaches
        have hready := himports (hmeets _ (List.mem_append_right _ List.mem_cons_self)) z hz
        rcases Relation.reflTransGen_iff_eq_or_transGen.mp hrest with rfl | hrest
        · exact hready
        · exact h.ready_trans (fun q hq => hmeets q (List.mem_append_left _ hq)) hready hrest
      · rw [← List.cons_append, ← List.append_assoc] at hsplit
        obtain ⟨hsplit, -⟩ := List.append_inj' hsplit rfl
        exact h.ordered before p after hsplit hmeets x hx y hreaches
    · rcases List.mem_append.mp hp with hp | hp
      · exact h.args p hp hmeets x hx y hreaches
      · rw [List.mem_singleton] at hp
        subst hp
        obtain rfl := Option.some.inj (hvalid.symm.trans hx)
        exact hargs hmeets y hreaches
  · by_cases hne : other = key
    · subst hne
      cases ok <;> simp [BuildState.set]
    · simpa [BuildState.set, Function.update_of_ne hne] using hother
  · rintro rfl
    exact List.mem_append_right _ List.mem_cons_self
  · simp [BuildState.set, Function.update_of_ne hne]

theorem forImports_spec {step : String → Work → Outcome Work} {Q : String → Work → Prop}
    (hQ : ∀ name w w', Advances g C w w' → Q name w → Q name w') {names : List String}
    (hstep : ∀ name ∈ names, ∀ {w b w'}, step name w = some (b, w') → BuildInvariant g w.build →
      BuildInvariant g w'.build ∧ Grows w.build w'.build ∧
        (b = true → Advances g C w w' ∧ Q name w')) {b : Bool}
    (h : forImports step names w = some (b, w')) (hinv : BuildInvariant g w.build) :
    BuildInvariant g w'.build ∧ Grows w.build w'.build ∧
      (b = true → Advances g C w w' ∧ ∀ name ∈ names, Q name w') := by
  induction names generalizing w with
  | nil =>
    cases h
    exact ⟨hinv, .refl, fun _ => ⟨.refl, nofun⟩⟩
  | cons name names ih =>
    unfold forImports at h
    split at h
    · cases h
    · rename_i hfirst
      cases h
      obtain ⟨hinv', hgrows, -⟩ := hstep name List.mem_cons_self hfirst hinv
      exact ⟨hinv', hgrows, nofun⟩
    · rename_i w₁ hfirst
      obtain ⟨hinv₁, hgrows₁, hadvances₁⟩ := hstep name List.mem_cons_self hfirst hinv
      obtain ⟨hadvances₁, hq⟩ := hadvances₁ rfl
      obtain ⟨hinv', hgrows, hrest⟩ :=
        ih (fun other hother => hstep other (List.mem_cons_of_mem _ hother)) h hinv₁
      refine ⟨hinv', hgrows₁.trans hgrows, fun hb => ?_⟩
      obtain ⟨hadvances, hqs⟩ := hrest hb
      exact ⟨hadvances₁.trans hadvances,
        List.forall_mem_cons.mpr ⟨hQ name _ _ hadvances hq, hqs⟩⟩

theorem resolveExternal_spec {name owner : String} {found : Option ExternalModuleSource}
    (h : resolveExternalNamedModuleSource g name owner σ = (found, σ')) :
    σ'.states = σ.states ∧ σ'.executed = σ.executed ∧
      ∀ source, found = some source ↔ g.resolveExternal name owner = .found source := by
  unfold resolveExternalNamedModuleSource at h
  split at h
  · rename_i source hsource
    cases h
    refine ⟨rfl, rfl, fun other => ?_⟩
    rw [hsource]
    simp
  · rename_i hmissing
    cases h
    refine ⟨rfl, rfl, fun other => ?_⟩
    rw [hmissing]
    simp
  · rename_i hfailure
    cases h
    refine ⟨rfl, rfl, fun other => ?_⟩
    rw [hfailure]
    simp

-- ---------------------------------------------------------------------------
-- One call
-- ---------------------------------------------------------------------------

/-- The imports of a module are there, and in its arguments all that it reaches. -/
def ImportsDone (g : ModuleGraph) (key : ModuleKey) (m : Module) (w : Work) : Prop :=
  StepMeets g key → (∀ y, Imports g m y → Ready g w.build.executed y) ∧ ∀ y, Reaches g m y → HasArg g w.args y

theorem finishModule_spec {execute : Execute} {key : ModuleKey} {r : Outcome Work} {b : Bool}
    (h : finishModule execute key r = some (b, σ')) (hkey : σ.states key = .notStarted)
    {m : Module} (hvalid : g.moduleOf key = some m) (hw : w.build = σ.set key .building)
    (hr : ∀ {b w'}, r = some (b, w') → BuildInvariant g w'.build ∧ Grows w.build w'.build ∧
      (b = true → Advances g C w w' ∧ ImportsDone g key m w')) :
    BuildInvariant g σ' ∧ Grows σ σ' ∧ (b = true → KeepsBuilding σ σ' ∧
      ∃ p ∈ σ'.executed, p.key = key ∧ p.ok = true) := by
  have hstart : Grows σ w.build := by
    rw [hw]
    exact grows_set nofun
  match r, h with
  | some (false, w'), h =>
    cases h
    obtain ⟨hinv, hgrows, -⟩ := hr rfl
    exact ⟨hinv.set_failed, (hstart.trans hgrows).trans (grows_set nofun), nofun⟩
  | some (true, w'), h =>
    obtain ⟨hinv, hgrows, hdone⟩ := hr rfl
    obtain ⟨hadvances, himports⟩ := hdone rfl
    have hbuilding : w'.build.states key = .building := by
      refine hadvances.building key ?_
      rw [hw]
      simp [BuildState.set]
    obtain ⟨hinv', hgrows', hexecuted, hothers⟩ := executeModulePrecompile_spec (Option.some.inj h) hinv
      hbuilding hvalid (fun hmeets => (himports hmeets).1) (fun hmeets => (himports hmeets).2)
    refine ⟨hinv', (hstart.trans hgrows).trans hgrows', fun hb => ⟨fun other hother => ?_, ?_⟩⟩
    · have hne : other ≠ key := by
        rintro rfl
        rw [hkey] at hother
        cases hother
      rw [hothers other hne]
      refine hadvances.building other ?_
      rw [hw]
      simpa [BuildState.set, Function.update_of_ne hne] using hother
    · exact ⟨_, hexecuted hb, rfl, rfl⟩

theorem visited_importsDone {key : ModuleKey} {idx : Nat} (hvalid : g.moduleOf key = some (.named idx))
    (hadvances : Advances g (Below g (g.importsOf (.named idx)) (g.ownerOf (.named idx))) w w') (hempty : w.visited = [])
    (himports : ∀ name ∈ g.importsOf (.named idx), name ∈ w'.visited) : ImportsDone g key (.named idx) w' := by
  intro hmeets
  have hmeaning : OneMeaning g (g.importsOf (.named idx)) (g.ownerOf (.named idx)) := hmeets _ hvalid
  have hnext : ∀ {name context m}, Below g (g.importsOf (.named idx)) (g.ownerOf (.named idx)) name context →
      name ∈ w'.visited → g.moduleAt name context = some m →
        Available g w' m ∧ ∀ y ∈ g.importsOf m, y ∈ w'.visited := by
    intro name context m hbelow hvisited hm
    obtain ⟨context', hbelow', hmodule⟩ := hadvances.newly name hvisited (by
      rw [hempty]
      exact List.not_mem_nil)
    exact hmodule m ((hmeaning name context' context hbelow' hbelow).trans hm)
  -- Each module that is reached stands for a name that was visited.
  have hreached : ∀ y, Reaches g (.named idx) y → ∃ name context,
      Below g (g.importsOf (.named idx)) (g.ownerOf (.named idx)) name context ∧ name ∈ w'.visited ∧
        g.moduleAt name context = some y := by
    intro y hreaches
    induction hreaches with
    | single hstep =>
      obtain ⟨name, hname, hm⟩ := hstep
      exact ⟨name, _, .here hname, himports name hname, hm⟩
    | tail _ hstep ih =>
      obtain ⟨name, context, hbelow, hvisited, hm⟩ := ih
      obtain ⟨name', hname', hm'⟩ := hstep
      exact ⟨name', _, .nested hbelow hm hname', (hnext hbelow hvisited hm).2 name' hname', hm'⟩
  have havailable : ∀ y, Reaches g (.named idx) y → Available g w' y := fun y hy => by
    obtain ⟨name, context, hbelow, hvisited, hm⟩ := hreached y hy
    exact (hnext hbelow hvisited hm).1
  exact ⟨fun y hy => (havailable y (.single hy)).1, fun y hy => (havailable y hy).2⟩

theorem buildNamedModulePcm_spec {execute : Execute} {call : Closures} {idx : Nat} {b : Bool}
    (hcall : ClosureSpec g call)
    (h : buildNamedModulePcm g execute call idx σ = some (b, σ')) (hinv : BuildInvariant g σ) :
    BuildInvariant g σ' ∧ Grows σ σ' ∧ (b = true → KeepsBuilding σ σ' ∧
      ∃ p ∈ σ'.executed, p.key = .named idx ∧ p.ok = true) := by
  unfold buildNamedModulePcm at h
  split at h
  · cases h
    exact ⟨hinv, .refl, nofun⟩
  · rename_i source hsource
    split at h
    · rename_i hbuilt
      cases h
      exact ⟨hinv, .refl, fun _ => ⟨fun _ h => h, hinv.built _ hbuilt⟩⟩
    · cases h
      exact ⟨hinv, .refl, nofun⟩
    · cases h
      exact ⟨hinv.set_failed, grows_set nofun, nofun⟩
    · rename_i hstate
      have himports : g.importsOf (.named idx) = source.importedModules := by
        simp [ModuleGraph.importsOf, hsource]
      have howner : g.ownerOf (.named idx) = source.sourceKey := by
        simp [ModuleGraph.ownerOf, hsource]
      have hvalid := moduleOf_named hsource
      let start : Work :=
        { build := σ.set (.named idx) .building, args := g.existingArgs source.sourceKey }
      refine finishModule_spec (C := Below g source.importedModules source.sourceKey) (w := start) h hstate hvalid rfl
        fun hloop => ?_
      obtain ⟨hinv', hgrows, hadvances⟩ := forImports_spec
        (Q := fun name w => name ∈ w.visited) (fun name w w' hadvances => hadvances.visited name)
        (fun name hname _ _ _ hstep => hcall.transitive closedImports_below (.here hname) hstep)
        hloop (hinv.set_building hstate)
      refine ⟨hinv', hgrows, fun hb => ?_⟩
      obtain ⟨hadvances, hvisited⟩ := hadvances hb
      refine ⟨hadvances, visited_importsDone (w := start) hvalid ?_ rfl (himports ▸ hvisited)⟩
      rw [himports, howner]
      exact hadvances

theorem grows_of_eq (hstates : σ'.states = σ.states) (hexecuted : σ'.executed = σ.executed) :
    Grows σ σ' := by
  refine ⟨?_, ?_⟩
  · rw [hstates]
    exact fun _ h => h
  · rw [hexecuted]
    exact fun _ h => h

theorem appended_importsDone {name owner file : String} {imports : List String}
    (hvalid : g.moduleOf (.external name owner) = some (.external name file imports))
    (havailable : ∀ y ∈ imports, ∀ m, g.moduleAt y file = some m → Available g w m) :
    ImportsDone g (.external name owner) (.external name file imports) w := by
  intro hmeets
  have hready : ∀ y, Imports g (.external name file imports) y → Available g w y := by
    rintro y ⟨name', hname', hm⟩
    exact havailable name' hname' y hm
  exact ⟨fun y hy => (hready y hy).1, fun y hy => (hready y (hmeets _ hvalid y hy)).2⟩

theorem buildExternalNamedModulePcm_spec {execute : Execute} {call : Closures} {name owner : String}
    {b : Bool} (hcall : ClosureSpec g call)
    (h : buildExternalNamedModulePcm g execute call name owner σ = some (b, σ'))
    (hinv : BuildInvariant g σ) :
    BuildInvariant g σ' ∧ Grows σ σ' ∧ (b = true → KeepsBuilding σ σ' ∧
      ∀ m, g.moduleOf (.external name owner) = some m →
        ∃ p ∈ σ'.executed, p.key = .external name owner ∧ p.ok = true) := by
  unfold buildExternalNamedModulePcm at h
  split at h
  · rename_i hbuilt
    cases h
    exact ⟨hinv, .refl, fun _ => ⟨fun _ h => h, fun _ _ => hinv.built _ hbuilt⟩⟩
  · cases h
    exact ⟨hinv, .refl, nofun⟩
  · cases h
    exact ⟨hinv.set_failed, grows_set nofun, nofun⟩
  · rename_i hstate
    split at h
    · rename_i σ₁ hresolve
      obtain ⟨hstates, hexecuted, hfound⟩ := resolveExternal_spec hresolve
      have hgrows := grows_of_eq hstates hexecuted
      split at h
      · cases h
        exact ⟨(hinv.of_eq hstates hexecuted).set_failed, hgrows.trans (grows_set nofun), nofun⟩
      · cases h
        refine ⟨hinv.of_eq hstates hexecuted, hgrows, fun _ => ⟨fun key hkey => ?_, ?_⟩⟩
        · rw [hstates, hkey]
        · intro m hm
          obtain ⟨source, hsource, -⟩ := moduleOf_external_eq_some hm
          cases (hfound source).mpr hsource
    · rename_i source σ₁ hresolve
      obtain ⟨hstates, hexecuted, hfound⟩ := resolveExternal_spec hresolve
      have hsource := (hfound source).mp rfl
      have hinv₁ := hinv.of_eq hstates hexecuted
      have hstate₁ : σ₁.states (.external name owner) = .notStarted := by rw [hstates, hstate]
      have hvalid := moduleOf_external hsource
      have hloop : ∀ {b w'}, forImports (call.appendModuleArgForImport · source.ownerKey)
          source.importedModules { build := σ₁.set (.external name owner) .building, args := [] } =
            some (b, w') → _ := fun hloop => forImports_spec
        (C := fun _ _ => True) (Q := fun y w => ∀ m, g.moduleAt y source.ownerKey = some m → Available g w m)
        (fun _ _ _ hadvances havailable m hm => (havailable m hm).mono hadvances)
        (fun y hy _ _ _ hstep hinv => by
          obtain ⟨hinv', hgrows, hadvances⟩ := hcall.arg hstep hinv
          refine ⟨hinv', hgrows, fun hb => ?_⟩
          obtain ⟨hadvances, -, havailable⟩ := hadvances hb
          exact ⟨hadvances, havailable⟩)
        hloop (hinv₁.set_building hstate₁)
      obtain ⟨hinv', hgrows, hdone⟩ := finishModule_spec h hstate₁ hvalid rfl fun hr => by
        obtain ⟨hinv', hgrows, hadvances⟩ := hloop hr
        refine ⟨hinv', hgrows, fun hb => ?_⟩
        obtain ⟨hadvances, havailable⟩ := hadvances hb
        exact ⟨hadvances, appended_importsDone hvalid havailable⟩
      refine ⟨hinv', (grows_of_eq hstates hexecuted).trans hgrows, fun hb => ?_⟩
      obtain ⟨hkeeps, hp⟩ := hdone hb
      refine ⟨fun key hkey => hkeeps key ?_, fun _ _ => hp⟩
      rw [hstates, hkey]

theorem addModuleArg_spec {key : ModuleKey} {m : Module} (hm : g.moduleOf key = some m) {r : Outcome BuildState}
    {b : Bool} (h : addModuleArg (g.nameOf m) (g.pcmOf key) w r = some (b, w'))
    (hr : ∀ {b σ'}, r = some (b, σ') → BuildInvariant g σ' ∧ Grows w.build σ' ∧
      (b = true → KeepsBuilding w.build σ' ∧ ∃ p ∈ σ'.executed, p.key = key ∧ p.ok = true)) :
    BuildInvariant g w'.build ∧ Grows w.build w'.build ∧
      (b = true → Advances g C w w' ∧ w'.visited = w.visited ∧ Available g w' m) := by
  match r, h with
  | some (false, σ'), h =>
    cases h
    obtain ⟨hinv, hgrows, -⟩ := hr rfl
    exact ⟨hinv, hgrows, nofun⟩
  | some (true, σ'), h =>
    cases h
    obtain ⟨hinv, hgrows, hdone⟩ := hr rfl
    obtain ⟨hkeeps, p, hp, hkey, hok⟩ := hdone rfl
    refine ⟨hinv, hgrows, fun _ => ⟨?_, rfl, ⟨p, hp, hkey ▸ hm, hok⟩, key, hm,
      List.mem_append_right _ List.mem_cons_self⟩⟩
    exact
      { building := hkeeps
        executed := hgrows.executed
        args := fun arg harg => List.mem_append_left _ harg
        visited := fun _ hname => hname
        newly := fun name hname hnot => absurd hname hnot }

theorem advances_of_eq (hstates : σ.states = w.build.states) (hexecuted : σ.executed = w.build.executed) :
    Advances g C w { w with build := σ } where
  building key hkey := by rw [← hkey]; exact congrFun hstates key
  executed p hp := by rw [← hexecuted] at hp; exact hp
  args _ h := h
  visited _ h := h
  newly _ hname hnot := absurd hname hnot

theorem appendModuleArgForImport_spec {call : Closures} {name owner : String} {b : Bool}
    (hcall : ClosureSpec g call) (h : appendModuleArgForImport g call name owner w = some (b, w'))
    (hinv : BuildInvariant g w.build) :
    BuildInvariant g w'.build ∧ Grows w.build w'.build ∧
      (b = true → Advances g C w w' ∧ w'.visited = w.visited ∧
        ∀ m, g.moduleAt name owner = some m → Available g w' m) := by
  unfold appendModuleArgForImport at h
  split at h
  · rename_i idx hindex
    obtain ⟨source, hsource, hname⟩ := indexByName_some hindex
    have hmodule := moduleOf_named hsource
    have hnamed : g.nameOf (.named idx) = name := by
      simp [ModuleGraph.nameOf, hsource, hname]
    rw [← hnamed] at h
    obtain ⟨hinv', hgrows, hdone⟩ := addModuleArg_spec hmodule h fun hr => hcall.named hr hinv
    refine ⟨hinv', hgrows, fun hb => ?_⟩
    obtain ⟨hadvances, hvisited, havailable⟩ := hdone hb
    refine ⟨hadvances, hvisited, fun m hm => ?_⟩
    rw [ModuleGraph.moduleAt, keyAt_named hindex, hmodule] at hm
    cases hm
    exact havailable
  · rename_i hindex
    split at h
    · rename_i σ hresolve
      obtain ⟨hstates, hexecuted, hfound⟩ := resolveExternal_spec hresolve
      cases h
      refine ⟨hinv.of_eq hstates hexecuted, grows_of_eq hstates hexecuted, fun _ =>
        ⟨advances_of_eq hstates hexecuted, rfl, fun m hm => ?_⟩⟩
      rw [ModuleGraph.moduleAt, keyAt_external hindex] at hm
      obtain ⟨source, hsource, -⟩ := moduleOf_external_eq_some hm
      cases (hfound source).mpr hsource
    · rename_i source σ hresolve
      obtain ⟨hstates, hexecuted, hfound⟩ := resolveExternal_spec hresolve
      have hsource := (hfound source).mp rfl
      have hmodule := moduleOf_external hsource
      have hpcm : source.pcmPath = g.pcmOf (.external name owner) := by
        rw [ModuleGraph.pcmOf, hsource]
      rw [hpcm] at h
      obtain ⟨hinv', hgrows, hdone⟩ := addModuleArg_spec hmodule h fun hr => by
        obtain ⟨hinv', hgrows, hdone⟩ := hcall.external hr (hinv.of_eq hstates hexecuted)
        refine ⟨hinv', (grows_of_eq hstates hexecuted).trans hgrows, fun hb => ?_⟩
        obtain ⟨hkeeps, hp⟩ := hdone hb
        refine ⟨fun key hkey => hkeeps key ?_, hp _ hmodule⟩
        rw [hstates, hkey]
      refine ⟨hinv', hgrows, fun hb => ?_⟩
      obtain ⟨hadvances, hvisited, havailable⟩ := hdone hb
      refine ⟨hadvances, hvisited, fun m hm => ?_⟩
      rw [ModuleGraph.moduleAt, keyAt_external hindex, hmodule] at hm
      cases hm
      exact havailable

theorem appendNestedImports_spec {call : Closures} {name owner : String} {b : Bool}
    (hcall : ClosureSpec g call) (hclosed : ClosedImports g C) (himport : C name owner)
    (h : appendNestedImports g call name owner w = some (b, w')) (hinv : BuildInvariant g w.build) :
    BuildInvariant g w'.build ∧ Grows w.build w'.build ∧
      (b = true → Advances g C w w' ∧
        ∀ m, g.moduleAt name owner = some m → ∀ y ∈ g.importsOf m, y ∈ w'.visited) := by
  unfold appendNestedImports at h
  split at h
  · rename_i idx hindex
    obtain ⟨source, hsource, -⟩ := indexByName_some hindex
    have hmodule : g.moduleAt name owner = some (.named idx) := by
      rw [ModuleGraph.moduleAt, keyAt_named hindex, moduleOf_named hsource]
    have hnested := hclosed himport hmodule
    simp only [ModuleGraph.importsOf, ModuleGraph.ownerOf, hsource, Option.map_some, Option.getD_some] at hnested
    rw [hsource] at h
    dsimp only at h
    obtain ⟨hinv', hgrows, hloop⟩ := forImports_spec
      (Q := fun y w => y ∈ w.visited) (fun y w w' hadvances => hadvances.visited y)
      (fun y hy _ _ _ hstep => hcall.transitive hclosed (hnested y hy) hstep) h hinv
    refine ⟨hinv', hgrows, fun hb => ?_⟩
    obtain ⟨hadvances, hvisited⟩ := hloop hb
    refine ⟨Advances.trans ?_ hadvances, fun m hm y hy => hvisited y ?_⟩
    · exact
        { building := fun _ h => h
          executed := fun _ h => h
          args := fun arg harg => List.mem_append_left _ harg
          visited := fun _ h => h
          newly := fun name hname hnot => absurd hname hnot }
    · rw [hmodule] at hm
      cases hm
      simpa [ModuleGraph.importsOf, hsource] using hy
  · rename_i hindex
    split at h
    · rename_i σ hresolve
      obtain ⟨hstates, hexecuted, hfound⟩ := resolveExternal_spec hresolve
      cases h
      refine ⟨hinv.of_eq hstates hexecuted, grows_of_eq hstates hexecuted, fun _ =>
        ⟨advances_of_eq hstates hexecuted, fun m hm => ?_⟩⟩
      rw [ModuleGraph.moduleAt, keyAt_external hindex] at hm
      obtain ⟨source, hsource, -⟩ := moduleOf_external_eq_some hm
      cases (hfound source).mpr hsource
    · rename_i source σ hresolve
      obtain ⟨hstates, hexecuted, hfound⟩ := resolveExternal_spec hresolve
      have hsource := (hfound source).mp rfl
      have hmodule : g.moduleAt name owner = some (.external name source.ownerKey source.importedModules) := by
        rw [ModuleGraph.moduleAt, keyAt_external hindex, moduleOf_external hsource]
      have hnested := hclosed himport hmodule
      obtain ⟨hinv', hgrows, hloop⟩ := forImports_spec
        (Q := fun y w => y ∈ w.visited) (fun y w w' hadvances => hadvances.visited y)
        (fun y hy _ _ _ hstep => hcall.transitive hclosed (hnested y hy) hstep) h (hinv.of_eq hstates hexecuted)
      refine ⟨hinv', (grows_of_eq hstates hexecuted).trans hgrows, fun hb => ?_⟩
      obtain ⟨hadvances, hvisited⟩ := hloop hb
      refine ⟨(advances_of_eq hstates hexecuted).trans hadvances, fun m hm y hy => hvisited y ?_⟩
      rw [hmodule] at hm
      cases hm
      exact hy

theorem appendTransitiveModuleArgsForImport_spec {call : Closures} {name owner : String} {b : Bool}
    (hcall : ClosureSpec g call) (hclosed : ClosedImports g C) (himport : C name owner)
    (h : appendTransitiveModuleArgsForImport g call name owner w = some (b, w'))
    (hinv : BuildInvariant g w.build) :
    BuildInvariant g w'.build ∧ Grows w.build w'.build ∧
      (b = true → Advances g C w w' ∧ name ∈ w'.visited) := by
  unfold appendTransitiveModuleArgsForImport at h
  split at h
  · rename_i hvisited
    cases h
    exact ⟨hinv, .refl, fun _ => ⟨.refl, hvisited⟩⟩
  · rename_i hnew
    split at h
    · cases h
    · rename_i w₁ harg
      cases h
      obtain ⟨hinv', hgrows, -⟩ := hcall.arg (C := C) harg hinv
      exact ⟨hinv', hgrows, nofun⟩
    · rename_i w₁ harg
      obtain ⟨hinv₁, hgrows₁, harg⟩ := hcall.arg (C := C) harg hinv
      obtain ⟨hadvances₁, hvisited₁, havailable⟩ := harg rfl
      obtain ⟨hinv', hgrows, hnested⟩ := appendNestedImports_spec hcall hclosed himport h hinv₁
      refine ⟨hinv', hgrows₁.trans hgrows, fun hb => ?_⟩
      obtain ⟨hadvances, himports⟩ := hnested hb
      have hname : name ∈ w'.visited := by
        refine hadvances.visited name ?_
        rw [hvisited₁]
        exact List.mem_cons_self
      have hboth := hadvances₁.trans hadvances
      refine ⟨⟨hboth.building, hboth.executed, hboth.args, ?_, fun y hy hnot => ?_⟩, hname⟩
      · exact fun y hy => hboth.visited y (List.mem_cons_of_mem _ hy)
      · by_cases heq : y = name
        · subst heq
          exact ⟨owner, himport, fun m hm => ⟨(havailable m hm).mono hadvances, himports m hm⟩⟩
        · exact hboth.newly y hy (by simp [heq, hnot])

end

theorem closures_spec (g : ModuleGraph) (execute : Execute) (fuel : Nat) :
    ClosureSpec g (closures g execute fuel) := by
  induction fuel with
  | zero => exact ⟨nofun, nofun, nofun, nofun⟩
  | succ fuel ih =>
    exact
      { named := buildNamedModulePcm_spec ih
        external := buildExternalNamedModulePcm_spec ih
        arg := appendModuleArgForImport_spec ih
        transitive := fun hclosed himport => appendTransitiveModuleArgsForImport_spec ih hclosed himport }

end Gentest.Codegen
